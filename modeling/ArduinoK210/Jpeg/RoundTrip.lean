import ArduinoK210.Jpeg.Headers

/-! A reader gets from the file that `jpeg_compress` makes what the encoder put into it: the sizes, the quantizers, and the quantized
coefficients of every block of the picture at its place. Only a program that has asked for nothing but the best quality gets files
without a picture: the static variable starts with the number that stands for it, so the tables stay empty. -/

namespace ArduinoK210.Jpeg

open Decoder (Place Picture PictureComponent decodePicture decodeBlocks unstuff places resolve)
open PrefixCode (bits)

namespace JpegBuf

theorem puts_stored {parts : List (List Nat)} {jpegBuf : JpegBuf}
    (clear : (parts.foldl (fun jpegBuf part => jpegBuf.jpegPutBytes (bytesOf part)) jpegBuf).overflow = false) :
    (parts.foldl (fun jpegBuf part => jpegBuf.jpegPutBytes (bytesOf part)) jpegBuf).buf = jpegBuf.buf ++ bytesOf parts.flatten ∧
      jpegBuf.overflow = false := by
  induction parts generalizing jpegBuf with
  | nil => exact ⟨(List.append_nil _).symm, clear⟩
  | cons part parts ih =>
    obtain ⟨rest, first⟩ := ih clear
    obtain ⟨before, stored⟩ := put_stored first
    refine ⟨rest.trans ?_, before⟩
    rw [List.flatten_cons, bytesOf_append, ← List.append_assoc]
    exact congrArg (· ++ _) stored

private theorem puts_frame (parts : List (List Nat)) (jpegBuf : JpegBuf) :
    (parts.foldl (fun jpegBuf part => jpegBuf.jpegPutBytes (bytesOf part)) jpegBuf).bitb = jpegBuf.bitb ∧
      (parts.foldl (fun jpegBuf part => jpegBuf.jpegPutBytes (bytesOf part)) jpegBuf).bitc = jpegBuf.bitc := by
  induction parts generalizing jpegBuf with
  | nil => exact ⟨rfl, rfl⟩
  | cons part parts ih =>
    obtain ⟨window, count⟩ := ih (jpegBuf.jpegPutBytes (bytesOf part))
    obtain ⟨window', count', -⟩ := put_frame (bytesOf part) jpegBuf
    exact ⟨window.trans window', count.trans count'⟩

/-- The scan starts behind the header with no bits. -/
theorem headers_holds {F : Type} {tables : Tables F} {size w h bpp : Nat} {subsampling : Subsampling}
    (clear : ((JpegBuf.start size).jpegWriteHeaders tables w h bpp subsampling).overflow = false) :
    ((JpegBuf.start size).jpegWriteHeaders tables w h bpp subsampling).Holds
      (bytesOf (headerParts tables w h bpp subsampling).flatten) [] := by
  obtain ⟨stored, -⟩ := puts_stored clear
  obtain ⟨window, count⟩ := puts_frame (headerParts tables w h bpp subsampling) (JpegBuf.start size)
  refine ⟨[], [], rfl, Nat.zero_le _, ?_, count, ?_⟩
  · rw [stuffed, List.flatMap_nil, List.append_nil]
    exact stored
  · rw [PrefixCode.number_nil, Nat.zero_mul, jpegWriteHeaders, window]
    rfl

/-- Without the mark, the end marker is there. -/
theorem finish_marked {jpegBuf : JpegBuf} (clear : jpegBuf.finish.overflow = false) :
    (jpegBuf.jpegWriteBits (0x7F, 7)).overflow = false ∧
      jpegBuf.finish.buf = (jpegBuf.jpegWriteBits (0x7F, 7)).buf ++ [0xFF, 0xD9] := by
  obtain ⟨first, last⟩ := put_stored clear
  obtain ⟨written, marker⟩ := put_stored first
  refine ⟨written, ?_⟩
  change (put [0xD9] (put [0xFF] (jpegBuf.jpegWriteBits (0x7F, 7)))).buf = _
  rw [show (put [0xD9] (put [0xFF] (jpegBuf.jpegWriteBits (0x7F, 7)))).buf = _ from last,
    show (jpegPutChar (jpegBuf.jpegWriteBits (0x7F, 7)) 0xFF).buf = _ from marker, List.append_assoc]
  rfl

theorem finish_stored {jpegBuf : JpegBuf} {front : List UInt8} {sent : List Bool} (holds : jpegBuf.Holds front sent)
    (clear : jpegBuf.finish.overflow = false) :
    ∃ bytes filling, byteBits bytes = sent ++ List.replicate filling true ∧ filling < 8 ∧
      jpegBuf.finish.buf = front ++ (stuffed bytes ++ [0xFF, 0xD9]) := by
  obtain ⟨written, marked⟩ := finish_marked clear
  obtain ⟨bytes, pending, split, few, held⟩ := jpegWriteBits_holds holds (show BitString.Fits (0x7F, 7) from ⟨by decide, by decide⟩) written
  have ones : BitString.word (0x7F, 7) = List.replicate 7 true := by decide
  rw [ones] at split
  -- at least the last bits of the filling are left over
  have cut : byteBits bytes = sent ++ List.replicate (7 - pending.length) true := by
    have lengths := congrArg List.length split
    rw [List.length_append, List.length_append, List.length_replicate] at lengths
    have parts : List.replicate 7 true = List.replicate (7 - pending.length) true ++ List.replicate pending.length true := by
      rw [← List.replicate_add]
      congr 1
      omega
    rw [parts, ← List.append_assoc] at split
    exact ((List.append_inj' split (List.length_replicate)).1).symm
  refine ⟨bytes, 7 - pending.length, cut, by omega, ?_⟩
  rw [marked, held.stored, List.append_assoc]

end JpegBuf

private theorem unstuff_stuffed (bytes : List UInt8) {marker : UInt8} (some_ : marker ≠ 0) (rest : List UInt8) :
    unstuff (stuffed bytes ++ 255 :: marker :: rest) = some (bytes, 255 :: marker :: rest) := by
  induction bytes with
  | nil =>
    change unstuff (255 :: marker :: rest) = _
    rw [unstuff, if_pos rfl, if_neg some_]
  | cons c bytes ih =>
    obtain ⟨next, later, follows⟩ : ∃ next later, stuffed bytes ++ 255 :: marker :: rest = next :: later := by
      cases stuffed bytes with
      | nil => exact ⟨_, _, rfl⟩
      | cons next later => exact ⟨_, _, rfl⟩
    change unstuff ((if c = 255 then [255, 0] else [c]) ++ stuffed bytes ++ 255 :: marker :: rest) = _
    rw [List.append_assoc]
    by_cases full : c = 255
    · rw [if_pos full]
      change unstuff (255 :: 0 :: (stuffed bytes ++ 255 :: marker :: rest)) = _
      rw [unstuff, if_pos rfl, if_pos rfl, ih, full]
      rfl
    · rw [if_neg full, follows]
      change unstuff (c :: next :: later) = _
      rw [unstuff, if_neg full, ← follows, ih]
      rfl

/-- The tables are those for some quality: their entries fit into a byte, and the divisors are theirs. -/
structure Tables.Proper {F : Type} (floats : Floats F) (tables : Tables F) : Prop where
  yLong : tables.yTable.length = 64
  uvLong : tables.uvTable.length = 64
  yRange : ∀ entry ∈ tables.yTable, 1 ≤ entry ∧ entry ≤ 255
  uvRange : ∀ entry ∈ tables.uvTable, 1 ≤ entry ∧ entry ≤ 255
  fdtblY : tables.fdtblY = fdtblOf floats tables.yTable
  fdtblUv : tables.fdtblUv = fdtblOf floats tables.uvTable

private theorem Tables.ready_proper {F : Type} (floats : Floats F) (quality : Int) : (ready floats quality).Proper floats := by
  have proper : ∀ yTable uvTable : List Nat, yTable.length = 64 → uvTable.length = 64 → (∀ entry ∈ yTable, 1 ≤ entry ∧ entry ≤ 255) →
      (∀ entry ∈ uvTable, 1 ≤ entry ∧ entry ≤ 255) →
      (⟨quality, yTable, uvTable, fdtblOf floats yTable, fdtblOf floats uvTable⟩ : Tables F).Proper floats :=
    fun _ _ long long' range range' => ⟨long, long', range, range', rfl, rfl⟩
  refine proper _ _ ?_ ?_ ?_ ?_
  · exact fillTable_length List.length_replicate
  · exact fillTable_length List.length_replicate
  · exact fun entry member => fillTable_range List.length_replicate member
  · exact fun entry member => fillTable_range List.length_replicate member

theorem bpp_color (src : ImageInfo) : Tables.bpp src = if decide (src.pixfmt ≠ .grayscale) then 2 else 1 := by
  rw [Tables.bpp]
  by_cases format : src.pixfmt = .grayscale <;> simp [format]

def pictureUnits (src : ImageInfo) (chosen : Subsampling) : List (Place × DataUnit) :=
  placed (src.pixfmt ≠ .grayscale) chosen (allBlocks src chosen)

def pictureOf {F : Type} (floats : Floats F) (tables : Tables F) (src : ImageInfo) (chosen : Subsampling) : Picture :=
  ⟨src.w, src.h,
    if src.pixfmt ≠ .grayscale then
      [⟨chosen.value / 16, chosen.value % 16, tables.yTable⟩, ⟨1, 1, tables.uvTable⟩, ⟨1, 1, tables.uvTable⟩]
    else [⟨1, 1, tables.yTable⟩],
    (pictureUnits src chosen).map fun unit => (unit.1, blockOf floats tables unit.2)⟩

section Units
variable {F : Type} {floats : Floats F} {tables : Tables F} {src : ImageInfo} {chosen : Subsampling}

private theorem pictureUnits_baseline (accurate : floats.Accurate) (proper : tables.Proper floats) :
    ∀ unit ∈ (pictureUnits src chosen).map Prod.snd, Baseline (coefficients floats tables unit) := by
  have entries : ∀ table : List Nat, table.length = 64 → (∀ entry ∈ table, 1 ≤ entry ∧ entry ≤ 255) →
      ∀ k < 64, 1 ≤ table.getD k 0 ∧ table.getD k 0 ≤ 255 := by
    intro table long range k inside
    rw [List.getD_eq_getElem table 0 (long ▸ inside)]
    exact range _ (List.getElem_mem _)
  intro unit member
  obtain ⟨⟨place, component, samples⟩, there, rfl⟩ := List.mem_map.mp member
  have range := (placed_matching _ _ _ _ there).2
  unfold coefficients Tables.fdtbl
  cases component with
  | y =>
    dsimp only
    rw [proper.fdtblY]
    exact baseline_of_samples accurate (entries _ proper.yLong proper.yRange) range
  | u =>
    dsimp only
    rw [proper.fdtblUv]
    exact baseline_of_samples accurate (entries _ proper.uvLong proper.uvRange) range
  | v =>
    dsimp only
    rw [proper.fdtblUv]
    exact baseline_of_samples accurate (entries _ proper.uvLong proper.uvRange) range

/-- The places of the data units are those that a reader counts through. -/
theorem pictureUnits_places (known : chosen ≠ .auto) (gray : src.pixfmt = .grayscale → chosen = .s444) :
    (pictureUnits src chosen).map Prod.fst = places ⟨src.h, src.w, frameComponents (src.pixfmt ≠ .grayscale) chosen⟩ := by
  unfold pictureUnits allBlocks encode
  cases chosen with
  | auto => exact absurd rfl known
  | s444 =>
    dsimp only
    rw [Stride.stridesUntil_never]
    refine places_of_rounds (mcu444_unites src _) src _ _ ?_ ?_ <;> cases decide (src.pixfmt ≠ .grayscale) <;> rfl
  | s422 =>
    have color : decide (src.pixfmt ≠ .grayscale) = true := decide_eq_true fun same => by cases gray same
    dsimp only
    rw [Stride.stridesUntil_never, color]
    exact places_of_rounds (mcu422_unites src) src _ _ rfl rfl
  | s420 =>
    have color : decide (src.pixfmt ≠ .grayscale) = true := decide_eq_true fun same => by cases gray same
    dsimp only
    rw [Stride.stridesUntil_never, color]
    exact places_of_rounds (mcu420_unites src) src _ _ rfl rfl

def declaredComponents (tables : Tables F) (color : Bool) (chosen : Subsampling) :
    List (PictureComponent × PrefixCode.Code Nat × PrefixCode.Code Nat) :=
  if color then
    [(⟨chosen.value / 16, chosen.value % 16, tables.yTable⟩, Component.y.codes), (⟨1, 1, tables.uvTable⟩, Component.u.codes),
      (⟨1, 1, tables.uvTable⟩, Component.v.codes)]
  else [(⟨1, 1, tables.yTable⟩, Component.y.codes)]

private theorem resolve_declared (tables : Tables F) (color : Bool) (chosen : Subsampling) (frame : Option Decoder.Frame) :
    resolve ⟨declaredQuantizers tables.yTable tables.uvTable color, declaredCodes color, frame⟩
        ((frameComponents color chosen).zip (declaredScan color)) =
      some (declaredComponents tables color chosen) := by
  cases color <;> rfl

private theorem declared_codes {color : Bool} {unit : Place × DataUnit} (gray : color = false → unit.2.1 = .y) :
    ((((declaredComponents tables color chosen).map Prod.snd)[unit.2.1.index]?).getD ([], [])) = unit.2.1.codes := by
  cases color with
  | false =>
    rw [gray rfl]
    rfl
  | true => cases unit.2.1 <;> rfl

/-- A file of a header, the bits of all data units filled up with ones, and the end marker. -/
theorem decodePicture_file (accurate : floats.Accurate) (proper : tables.Proper floats) (known : chosen ≠ .auto)
    (gray : src.pixfmt = .grayscale → chosen = .s444) (wide : src.w < 65536) (high : src.h < 65536) {bytes : List UInt8} {filling : Nat}
    (few : filling < 8)
    (coded : byteBits bytes = unitBits floats tables ((pictureUnits src chosen).map Prod.snd) (fun _ => 0) ++ List.replicate filling true) :
    decodePicture (bytesOf (headerParts tables src.w src.h (Tables.bpp src) chosen).flatten ++ (stuffed bytes ++ [0xFF, 0xD9])) =
      some (pictureOf floats tables src chosen) := by
  obtain ⟨color, colors⟩ : ∃ color : Bool, color = decide (src.pixfmt ≠ .grayscale) := ⟨_, rfl⟩
  have bpp : Tables.bpp src = if color then 2 else 1 := colors ▸ bpp_color src
  have order := pictureUnits_places known gray
  have baseline := @pictureUnits_baseline F floats tables src chosen accurate proper
  rw [← colors] at order
  have count : (frameComponents color chosen).length = (declaredScan color).length := by cases color <;> rfl
  have read := @decodeBlocks_unitBits F floats tables
    (fun number => (((declaredComponents tables color chosen).map Prod.snd)[number]?).getD ([], []))
    ((pictureUnits src chosen).map Prod.snd)
    (by
      intro unit member
      obtain ⟨placed, there, rfl⟩ := List.mem_map.mp member
      refine declared_codes fun plain => ?_
      have format : src.pixfmt = .grayscale := by
        by_contra other
        rw [plain] at colors
        exact of_decide_eq_false colors.symm other
      have single : chosen = .s444 := gray format
      unfold pictureUnits at there
      rw [← colors, plain, single] at there
      exact placed_gray _ _ there)
    baseline (fun _ => 0) (fun _ => ⟨by decide, by decide⟩) (fun _ => 0) (fun _ => rfl) (List.replicate filling true)
  have components : ((pictureUnits src chosen).map Prod.snd).map (fun unit => unit.1.index) =
      (places ⟨src.h, src.w, frameComponents color chosen⟩).map Place.component := by
    rw [← order, List.map_map, List.map_map]
    exact List.map_congr_left fun unit member => ((placed_matching _ _ _ _ member).1).symm
  rw [bpp, headerParts_segments proper.yLong proper.uvLong, bytesOf_append, List.append_assoc]
  change decodePicture (0xFF :: 0xD8 :: (bytesOf _ ++ (stuffed bytes ++ [0xFF, 0xD9]))) = _
  rw [decodePicture, readSegments_header proper.yLong proper.uvLong proper.yRange proper.uvRange wide high]
  have body : unstuff (stuffed bytes ++ [0xFF, 0xD9]) = some (bytes, [0xFF, 0xD9]) := unstuff_stuffed bytes (by decide) []
  have blocks : decodeBlocks (fun number => (((declaredComponents tables color chosen).map Prod.snd)[number]?).getD ([], []))
      ((places ⟨src.h, src.w, frameComponents color chosen⟩).map Place.component) (fun _ => 0)
      (bytes.flatMap fun c => bits 8 c.toNat) =
      some (((pictureUnits src chosen).map Prod.snd).map (blockOf floats tables), List.replicate filling true) := by
    rw [← components]
    change decodeBlocks _ _ _ (byteBits bytes) = _
    rw [coded]
    exact read
  have full : (List.replicate filling true).length < 8 ∧ (List.replicate filling true).all id = true :=
    ⟨by rw [List.length_replicate]; exact few, List.all_eq_true.mpr fun bit member => List.eq_of_mem_replicate member⟩
  have shapes : (declaredComponents tables color chosen).map Prod.fst = (pictureOf floats tables src chosen).components := by
    unfold pictureOf
    dsimp only
    rw [declaredComponents, colors]
    by_cases format : src.pixfmt = .grayscale <;> simp [format]
  have zips : (places ⟨src.h, src.w, frameComponents color chosen⟩).zip
      (((pictureUnits src chosen).map Prod.snd).map (blockOf floats tables)) = (pictureOf floats tables src chosen).blocks := by
    rw [← order, List.map_map, List.zip_map']
    rfl
  simp only [Option.bind_eq_bind, Option.bind_some, count, resolve_declared, body, blocks, eq_true full, guard_true, shapes, zips]
  rfl

private theorem headed_holds {size : Nat} (clear : (tables.headed src size chosen).buf.overflow = false) :
    (tables.headed src size chosen).buf.Holds (bytesOf (headerParts tables src.w src.h (Tables.bpp src) chosen).flatten) [] := by
  unfold Tables.headed at clear ⊢
  dsimp only at clear ⊢
  exact JpegBuf.headers_holds clear

/-- The header is the beginning of every file, also of one that is cut at its end. -/
theorem Tables.Returned.headed {size : Nat} {quality : Int} {requested : Subsampling} {outcome : Outcome F}
    (returned : Returned floats tables src size quality requested outcome) :
    ∃ rest, outcome.buf.buf =
      bytesOf (headerParts outcome.tables src.w src.h (Tables.bpp src) (subsampling src quality requested)).flatten ++ rest := by
  have clear : (outcome.tables.headed src size (subsampling src quality requested)).buf.overflow = false := process_clear returned.clear
  obtain ⟨stored, -⟩ := JpegBuf.puts_stored clear
  obtain ⟨header, same⟩ : ∃ header, header =
    bytesOf (headerParts outcome.tables src.w src.h (Tables.bpp src) (subsampling src quality requested)).flatten := ⟨_, rfl⟩
  rw [← same] at stored ⊢
  have steady := JpegBuf.prefix_steady header
  have first : header <+: (outcome.tables.headed src size (subsampling src quality requested)).buf.buf :=
    ⟨[], (List.append_nil _).trans stored.symm⟩
  have coded : header <+: (outcome.tables.coded floats src size (subsampling src quality requested)
      (allBlocks src (subsampling src quality requested))).buf.buf := process_steady steady first _
  have whole := steady.finish coded
  rw [← returned.buf] at whole
  obtain ⟨rest, file⟩ := whole
  exact ⟨rest, file.symm⟩

/-- The file of a call: the header, the bits of all data units filled up with ones, and the end marker. -/
theorem Tables.Returned.stored {size : Nat} {quality : Int} {requested : Subsampling} {outcome : Outcome F}
    (returned : Returned floats tables src size quality requested outcome)
    (baseline : ∀ unit ∈ (pictureUnits src (subsampling src quality requested)).map Prod.snd,
      Baseline (coefficients floats outcome.tables unit)) (clear : outcome.buf.overflow = false) :
    ∃ bytes filling, filling < 8 ∧
      byteBits bytes = unitBits floats outcome.tables ((pictureUnits src (subsampling src quality requested)).map Prod.snd) (fun _ => 0) ++
        List.replicate filling true ∧
      outcome.buf.buf = bytesOf (headerParts outcome.tables src.w src.h (Tables.bpp src) (subsampling src quality requested)).flatten ++
        (stuffed bytes ++ [0xFF, 0xD9]) := by
  have units : (pictureUnits src (subsampling src quality requested)).map Prod.snd =
      dataUnits (src.pixfmt ≠ .grayscale) (subsampling src quality requested) (allBlocks src (subsampling src quality requested)) :=
    placed_units _ _ _
  rw [units] at baseline ⊢
  have near : ∀ component, -1024 ≤ (outcome.tables.headed src size (subsampling src quality requested)).dc component ∧
      (outcome.tables.headed src size (subsampling src quality requested)).dc component ≤ 1023 := fun _ =>
    ⟨show (-1024 : Int) ≤ 0 by decide, show (0 : Int) ≤ 1023 by decide⟩
  have scanned : (outcome.tables.coded floats src size (subsampling src quality requested)
      (allBlocks src (subsampling src quality requested))).buf.Holds _ _ :=
    process_holds (headed_holds (process_clear returned.clear)) baseline near returned.clear
  rw [List.nil_append] at scanned
  rw [returned.buf] at clear ⊢
  obtain ⟨bytes, filling, coded, few, stored⟩ := JpegBuf.finish_stored scanned clear
  exact ⟨bytes, filling, few, coded, stored⟩

/-- A call that returns zero and does not end where its buffer may be full has made a picture that a reader gets back. -/
theorem Tables.Returned.decodePicture {size : Nat} {quality : Int} {requested : Subsampling} {outcome : Outcome F}
    (returned : Returned floats tables src size quality requested outcome) (accurate : floats.Accurate)
    (proper : outcome.tables.Proper floats) (wide : src.w < 65536) (high : src.h < 65536) (clear : outcome.buf.overflow = false) :
    Decoder.decodePicture outcome.buf.buf = some (pictureOf floats outcome.tables src (subsampling src quality requested)) := by
  have baseline := @pictureUnits_baseline F floats outcome.tables src (subsampling src quality requested) accurate proper
  obtain ⟨bytes, filling, few, coded, stored⟩ := returned.stored baseline clear
  rw [stored]
  exact decodePicture_file accurate proper (subsampling_ne_auto src quality requested) (fun gray => if_pos gray) wide high few coded

private theorem Tables.Returned.accepted {size : Nat} {quality : Int} {requested : Subsampling} {outcome : Outcome F}
    (returned : Returned floats tables src size quality requested outcome) (lowest : 1 ≤ quality) (highest : quality ≤ 100) :
    Call.accepted ⟨some src, some size, quality, requested, lowest, highest⟩ = true := by
  simp [Call.accepted, returned.sized.1, returned.sized.2, returned.format, returned.positive]

end Units

namespace Tables

variable {F : Type} {floats : Floats F}

/-- Once a call has asked for another quality than the best, every file is a picture that a reader gets back, with its quantizers for
the quality that was asked for. -/
theorem decodePicture_of_calls (accurate : floats.Accurate) {calls : List Call} {call : Call} {src : ImageInfo} {size : Nat}
    (image : call.src = some src) (buffer : call.dst = some size) (other : ∃ quality ∈ asked (calls ++ [call]), quality ≠ 0)
    (wide : src.w < 65536) (high : src.h < 65536) (small : size < 2 ^ 31)
    (zero : ((after floats calls).jpegCompress floats call.src call.dst call.quality call.requested).result = 0)
    (room : ((after floats calls).jpegCompress floats call.src call.dst call.quality call.requested).buf.buf.length + 1 ≠ size) :
    Decoder.decodePicture ((after floats calls).jpegCompress floats call.src call.dst call.quality call.requested).buf.buf =
      some (pictureOf floats (ready floats (scaled call.quality)) src (subsampling src call.quality call.requested)) := by
  obtain ⟨source, target, quality, requested, lowest, highest⟩ := call
  subst image buffer
  have returned := jpegCompress_returned zero
  have accepted := returned.accepted lowest highest
  have tables : ((after floats calls).jpegCompress floats (some src) (some size) quality requested).tables =
      ready floats (scaled quality) := by
    have all := tables_of_calls floats (calls ++ [⟨some src, some size, quality, requested, lowest, highest⟩])
    rw [if_neg fun all => other.elim fun quality named => named.2 (all quality named.1), asked_accepted accepted, List.getLastD_concat,
      after, List.foldl_append] at all
    exact all
  have proper := ready_proper floats (scaled quality)
  rw [← tables] at proper ⊢
  exact returned.decodePicture accurate proper wide high (returned.whole small room)

end Tables

open Decoder (decodePicture)

section Empty
variable {F : Type} (floats : Floats F)

theorem quantize_zero (du : Nat → Int) : quantize floats du (fun _ => floats.zero) = (fun _ => 0, 0) := by
  have step : ∀ i, quantizeStep floats du (fun _ => floats.zero) (fun _ => 0, 0) i = (fun _ => 0, 0) := by
    intro i
    unfold quantizeStep
    dsimp only
    rw [floats.descale_zero, Function.update_eq_self_iff.mpr rfl, if_neg fun set => set.2 rfl]
  have all : ∀ rounds : List Nat, rounds.foldl (quantizeStep floats du (fun _ => floats.zero)) (fun _ => 0, 0) = (fun _ => 0, 0) := by
    intro rounds
    induction rounds with
    | nil => rfl
    | cons i rounds ih =>
      rw [List.foldl_cons, step]
      exact ih
  exact all _

private theorem start_quantize (component : Component) (du : Nat → Int) :
    quantize floats du ((Tables.start floats).fdtbl component) = (fun _ => 0, 0) := by
  cases component <;> exact quantize_zero floats du

private theorem start_baseline (unit : DataUnit) : Baseline (coefficients floats (Tables.start floats) unit) := by
  unfold coefficients
  rw [start_quantize]
  exact ⟨show (-1024 : Int) ≤ 0 by decide, show (0 : Int) ≤ 1023 by decide, fun _ _ => show (0 : Int).natAbs ≤ 1023 by decide⟩

theorem processDU_blank (scan : Scan) {unit unit' : DataUnit} (component : unit.1 = unit'.1) :
    scan.processDU floats (Tables.start floats) unit = scan.processDU floats (Tables.start floats) unit' := by
  unfold Scan.processDU jpegProcessDU
  dsimp only
  rw [start_quantize, start_quantize, component]

private theorem process_blank (scan : Scan) {units units' : List DataUnit} (components : units.map Prod.fst = units'.map Prod.fst) :
    scan.process floats (Tables.start floats) units = scan.process floats (Tables.start floats) units' := by
  induction units generalizing scan units' with
  | nil =>
    have none := List.map_eq_nil_iff.mp components.symm
    rw [none]
  | cons unit units ih =>
    cases units' with
    | nil => cases components
    | cons unit' units' =>
      obtain ⟨first, rest⟩ := List.cons.inj components
      change (scan.processDU floats (Tables.start floats) unit).process floats _ units = _
      rw [processDU_blank floats scan first]
      exact ih _ rest

end Empty

/-- The components of the data units depend on the number of blocks only. -/
theorem dataUnits_components (color : Bool) : ∀ (chosen : Subsampling) (blocks : List Mcu),
    (dataUnits color chosen blocks).map Prod.fst =
      (dataUnits color chosen (List.replicate blocks.length (blank 0 0))).map Prod.fst
  | .auto, [] | .s444, [] | .s422, [] | .s422, [_] | .s420, [] | .s420, [_] | .s420, [_, _] | .s420, [_, _, _] => rfl
  | .auto, _ :: _ => rfl
  | .s444, mcu :: rest => by
    rw [List.length_cons, List.replicate_succ, dataUnits, dataUnits, List.map_append, List.map_append,
      dataUnits_components color .s444 rest]
    cases color <;> rfl
  | .s422, left :: right :: rest => by
    rw [List.length_cons, List.length_cons, List.replicate_succ, List.replicate_succ, dataUnits, dataUnits, List.map_append,
      List.map_append, dataUnits_components color .s422 rest]
    rfl
  | .s420, first :: second :: third :: fourth :: rest => by
    rw [List.length_cons, List.length_cons, List.length_cons, List.length_cons, List.replicate_succ, List.replicate_succ,
      List.replicate_succ, List.replicate_succ, dataUnits, dataUnits, List.map_append, List.map_append,
      dataUnits_components color .s420 rest]
    rfl

/-- The loops over two images of one size take the same course when only the number of the blocks counts. -/
theorem encode_lengths (src : ImageInfo) (data : Nat → UInt8) (chosen : Subsampling) {stop stop' : List Mcu → Bool}
    (alike : ∀ done done' : List Mcu, done.length = done'.length → stop done = stop' done') :
    (encode { src with data } stop chosen).1.length = (encode src stop' chosen).1.length ∧
      (encode { src with data } stop chosen).2 = (encode src stop' chosen).2 := by
  have rows : ∀ (step : Nat) (positive : 0 < step) (round round' : Nat → Nat → List Mcu),
      (∀ y x, (round y x).length = (round' y x).length) → ∀ y,
        (mcuRow { src with data } step positive round y).length = (mcuRow src step positive round' y).length :=
    fun _ _ _ _ lengths y => Stride.strides_lengths (lengths y) 0
  cases chosen with
  | auto => exact ⟨rfl, rfl⟩
  | s444 =>
    have one : ∀ (src : ImageInfo) (y x : Nat), (mcu444 src y x).length = 1 := fun _ _ _ => rfl
    exact Stride.stridesUntil_lengths (rows _ _ (mcu444 _) (mcu444 _) fun y x => (one _ y x).trans (one _ y x).symm) alike rfl 0
  | s422 =>
    have two : ∀ (src : ImageInfo) (y x : Nat), (mcu422 src y x).length = 2 := fun _ _ _ => rfl
    exact Stride.stridesUntil_lengths (rows _ _ (mcu422 _) (mcu422 _) fun y x => (two _ y x).trans (two _ y x).symm) alike rfl 0
  | s420 =>
    have four : ∀ (src : ImageInfo) (y x : Nat), (mcu420 src y x).length = 4 := fun _ _ _ => rfl
    exact Stride.stridesUntil_lengths (rows _ _ (mcu420 _) (mcu420 _) fun y x => (four _ y x).trans (four _ y x).symm) alike rfl 0

namespace Tables

variable {F : Type} (floats : Floats F)

private theorem coded_blank (src : ImageInfo) (data : Nat → UInt8) (size : Nat) (chosen : Subsampling) {blocks blocks' : List Mcu}
    (equal : blocks.length = blocks'.length) :
    (start floats).coded floats { src with data } size chosen blocks = (start floats).coded floats src size chosen blocks' := by
  refine process_blank floats _ ?_
  rw [dataUnits_components, equal, ← dataUnits_components]

/-- With the empty tables, the pixels do not count. -/
theorem start_blank (src : ImageInfo) (data : Nat → UInt8) (dst : Option Nat) {quality : Int} (best : scaled quality = 0)
    (requested : Subsampling) :
    (start floats).jpegCompress floats (some { src with data }) dst quality requested =
      (start floats).jpegCompress floats (some src) dst quality requested := by
  cases dst with
  | none =>
    unfold jpegCompress
    dsimp only
    by_cases sized : src.w = 0 ∨ src.h = 0
    · rw [if_pos sized, if_pos sized]
    · rw [if_neg sized, if_neg sized, if_pos (.inl rfl), if_pos (.inl rfl)]
  | some size =>
    have same : start floats = (start floats).jpegInit floats quality := (jpegInit_same best.symm).symm
    obtain ⟨chosen, chooses⟩ : ∃ chosen, chosen = subsampling src quality requested := ⟨_, rfl⟩
    obtain ⟨stop, stops⟩ : ∃ stop : List Mcu → Bool, stop = fun blocks =>
      ((start floats).coded floats { src with data } size chosen blocks).buf.overflow := ⟨_, rfl⟩
    obtain ⟨stop', stops'⟩ : ∃ stop : List Mcu → Bool, stop = fun blocks =>
      ((start floats).coded floats src size chosen blocks).buf.overflow := ⟨_, rfl⟩
    obtain ⟨equal, course⟩ := @encode_lengths src data chosen stop stop' fun done done' equal => by
      rw [stops, stops']
      exact congrArg (fun scan : Scan => scan.buf.overflow) (coded_blank floats src data size chosen equal)
    have first := @jpegCompress_some F floats (start floats) { src with data } size quality requested chosen _ stop chooses same stops
    rw [first, jpegCompress_some chooses same stops', course, coded_blank floats src data size chosen equal]

/-- The tables of a call, whatever was called before it: they are empty, or those for some quality. -/
theorem tables_reached (calls : List Call) (quality : Int) :
    (after floats calls).jpegInit floats quality = start floats ∨ ∃ quality', (after floats calls).jpegInit floats quality = ready floats quality' := by
  rw [tables_of_calls]
  split
  · rw [jpegInit_start]
    split
    · exact .inl rfl
    · exact .inr ⟨_, rfl⟩
  · rw [jpegInit_ready]
    exact .inr ⟨_, rfl⟩

theorem tables_long (calls : List Call) (quality : Int) :
    ((after floats calls).jpegInit floats quality).yTable.length = 64 ∧ ((after floats calls).jpegInit floats quality).uvTable.length = 64 := by
  obtain empty | ⟨quality', full⟩ := tables_reached floats calls quality
  · rw [empty]
    exact ⟨List.length_replicate, List.length_replicate⟩
  · rw [full]
    exact ⟨(ready_proper floats quality').yLong, (ready_proper floats quality').uvLong⟩

theorem tables_baseline {floats : Floats F} (accurate : floats.Accurate) (calls : List Call) (quality : Int) (src : ImageInfo)
    (chosen : Subsampling) :
    ∀ unit ∈ (pictureUnits src chosen).map Prod.snd, Baseline (coefficients floats ((after floats calls).jpegInit floats quality) unit) := by
  obtain empty | ⟨quality', full⟩ := tables_reached floats calls quality
  · rw [empty]
    exact fun unit _ => start_baseline floats unit
  · rw [full]
    exact pictureUnits_baseline accurate (ready_proper floats quality')

theorem decodePicture_zero {tables : Tables F} (long : tables.yTable.length = 64) (long' : tables.uvTable.length = 64)
    (zero : 0 ∈ tables.yTable) (w h : Nat) (color : Bool) (chosen : Subsampling) (data : List UInt8) :
    decodePicture (bytesOf (headerParts tables w h (if color then 2 else 1) chosen).flatten ++ data) = none := by
  have size : (quantizersBody tables.yTable tables.uvTable color).length + 2 < 65536 := by
    cases color <;> simp [quantizersBody, long, long']
  have refused : Decoder.readQuantizers 4 (bytesOf (quantizersBody tables.yTable tables.uvTable color)) = none := by
    obtain ⟨rest, body⟩ : ∃ rest, quantizersBody tables.yTable tables.uvTable color = 0 :: (tables.yTable ++ rest) := by
      cases color with
      | false => exact ⟨[], by rw [List.append_nil]; rfl⟩
      | true => exact ⟨_, rfl⟩
    have member : (0 : UInt8) ∈ bytesOf tables.yTable := List.mem_map_of_mem zero
    rw [body, bytesOf_cons, bytesOf_append, Decoder.readQuantizers, split_bytesOf long]
    dsimp only
    rw [if_neg fun valid => valid.2 member]
  rw [headerParts_segments long long', bytesOf_append, List.append_assoc]
  change decodePicture (0xFF :: 0xD8 :: (bytesOf _ ++ data)) = _
  rw [decodePicture, bytesOf_append, bytesOf_append, List.append_assoc, List.append_assoc, readSegments_segment _ (by decide),
    if_neg (by decide), if_neg (by decide), if_neg (by decide), if_neg (by decide), if_pos (by decide), readSegments_segment _ size,
    if_pos (by decide), refused]
  rfl

private theorem after_best {calls : List Call} {call : Call} (best : ∀ quality ∈ asked (calls ++ [call]), quality = 0) :
    after floats calls = start floats := by
  rw [tables_of_calls, if_pos]
  intro quality asked
  by_cases accepted : call.accepted = true
  · exact best quality (asked_accepted accepted calls ▸ List.mem_append_left _ asked)
  · exact best quality (asked_rejected (eq_false_of_ne_true accepted) calls ▸ asked)

private theorem scaled_best {calls : List Call} {call : Call} (best : ∀ quality ∈ asked (calls ++ [call]), quality = 0)
    (accepted : call.accepted = true) : scaled call.quality = 0 :=
  best _ (asked_accepted accepted calls ▸ List.mem_append_right _ List.mem_cons_self)

theorem jpegCompress_rejected {tables : Tables F} {call : Call} (rejected : call.accepted = false) {src : ImageInfo}
    (image : call.src = some src) :
    tables.jpegCompress floats call.src call.dst call.quality call.requested = ⟨-1, tables, JpegBuf.start (call.dst.getD 0)⟩ := by
  obtain ⟨source, dst, quality, requested, lowest, highest⟩ := call
  subst image
  unfold jpegCompress
  dsimp only
  by_cases sized : src.w = 0 ∨ src.h = 0
  · rw [if_pos sized]
  · rw [if_neg sized]
    by_cases room : dst = none ∨ dst = some 0
    · rw [if_pos room]
    · rw [if_neg room]
      by_cases format : src.pixfmt = .invalid
      · rw [if_pos format]
      · obtain ⟨wide, high⟩ := not_or.mp sized
        cases dst with
        | none => exact absurd (.inl rfl) room
        | some size =>
          have some_ : size ≠ 0 := fun none => room (.inr (congrArg some none))
          simp [Call.accepted, wide, high, format, some_] at rejected

/-- As long as every call has asked for the best quality, no outcome depends on the pixels. -/
theorem blank_of_calls {calls : List Call} {call : Call} (best : ∀ quality ∈ asked (calls ++ [call]), quality = 0) {src : ImageInfo}
    (image : call.src = some src) (data : Nat → UInt8) :
    (after floats calls).jpegCompress floats (some { src with data }) call.dst call.quality call.requested =
      (after floats calls).jpegCompress floats call.src call.dst call.quality call.requested := by
  rw [after_best floats best]
  by_cases accepted : call.accepted = true
  · rw [image]
    exact start_blank floats src data call.dst (scaled_best best accepted) call.requested
  · have rejected := eq_false_of_ne_true accepted
    rw [jpegCompress_rejected floats rejected image]
    obtain ⟨source, dst, quality, requested, lowest, highest⟩ := call
    subst image
    have other : Call.accepted ⟨some { src with data }, dst, quality, requested, lowest, highest⟩ = false := by
      cases dst <;> exact rejected
    exact @jpegCompress_rejected F floats (start floats) _ other _ rfl

theorem refused_of_calls {calls : List Call} {call : Call} (best : ∀ quality ∈ asked (calls ++ [call]), quality = 0) {src : ImageInfo}
    {size : Nat} (image : call.src = some src) (buffer : call.dst = some size)
    (zero : ((after floats calls).jpegCompress floats call.src call.dst call.quality call.requested).result = 0) :
    decodePicture ((after floats calls).jpegCompress floats call.src call.dst call.quality call.requested).buf.buf = none := by
  rw [after_best floats best] at zero ⊢
  obtain ⟨source, target, quality, requested, lowest, highest⟩ := call
  subst image buffer
  have returned := jpegCompress_returned zero
  have same : scaled quality = 0 := scaled_best best (returned.accepted lowest highest)
  have tables := returned.tables
  rw [jpegInit_same same.symm] at tables
  obtain ⟨rest, stored⟩ := returned.headed
  rw [stored, tables, bpp_color]
  have entries : (start floats).yTable = List.replicate 64 0 := rfl
  have entries' : (start floats).uvTable = List.replicate 64 0 := rfl
  refine decodePicture_zero ?_ ?_ ?_ _ _ _ _ _
  · rw [entries, List.length_replicate]
  · rw [entries', List.length_replicate]
  · rw [entries]
    exact List.mem_replicate.mpr ⟨by decide, rfl⟩

end Tables

end ArduinoK210.Jpeg
