import ArduinoK210.Lib.PrefixCode

/-! What a reader makes of a baseline picture: the specification that the encoder is held against. A reader knows nothing of the
encoder's tables. It takes the codes, the quantizers and the shape of the picture from the header. -/

namespace ArduinoK210.Jpeg.Decoder

open PrefixCode (Code decode number)

def receive (size : Nat) (input : List Bool) : Option (Nat × List Bool) :=
  if size ≤ input.length then some (number (input.take size), input.drop size) else none

/-- The number that `size` bits stand for: the lower half is negative. -/
def extend (value size : Nat) : Int := if value < 2 ^ (size - 1) then value - 2 ^ size + 1 else value

/-- A number behind its size; no bits stand for zero. -/
def magnitude (size : Nat) (input : List Bool) : Option (Int × List Bool) :=
  if size = 0 then some (0, input) else (receive size input).map fun received => (extend received.1 size, received.2)

/-- The coefficients that are left of a block. A symbol is a run of zeros and the size of what follows them. -/
def decodeAc (ac : Code Nat) (left : Nat) (input : List Bool) : Option (List Int × List Bool) :=
  if left = 0 then some ([], input)
  else
    match decode ac input with
    | none => none
    | some (symbol, input) =>
        if symbol % 16 = 0 then
          if symbol / 16 = 15 then
            if 16 ≤ left then (decodeAc ac (left - 16) input).map fun rest => (List.replicate 16 0 ++ rest.1, rest.2) else none
          else some (List.replicate left 0, input)
        else if symbol / 16 < left then
          match magnitude (symbol % 16) input with
          | none => none
          | some (value, input) =>
              (decodeAc ac (left - symbol / 16 - 1) input).map fun rest => (List.replicate (symbol / 16) 0 ++ value :: rest.1, rest.2)
        else none
termination_by left

/-- The 64 coefficients of a block in zigzag order. The first is told by its difference to that of the block before. -/
def decodeBlock (dc ac : Code Nat) (predicted : Int) (input : List Bool) : Option (List Int × List Bool) :=
  match decode dc input with
  | none => none
  | some (size, input) =>
      match magnitude size input with
      | none => none
      | some (difference, input) =>
          (decodeAc ac 63 input).map fun rest => ((predicted + difference) :: rest.1, rest.2)

/-- The blocks of a scan in their order, each told by the number of its component. -/
def decodeBlocks (codes : Nat → Code Nat × Code Nat) : (components : List Nat) → (predicted : Nat → Int) → List Bool →
    Option (List (List Int) × List Bool)
  | [], _, input => some ([], input)
  | component :: components, predicted, input =>
      match decodeBlock (codes component).1 (codes component).2 (predicted component) input with
      | none => none
      | some (block, input) =>
          (decodeBlocks codes components (fun other => if other = component then block.headD 0 else predicted other) input).map
            fun rest => (block :: rest.1, rest.2)

/-- A component of the picture: its sampling factors, and the number of its quantizer. -/
structure FrameComponent where
  id : Nat
  horizontal : Nat
  vertical : Nat
  quantizer : Nat
  deriving DecidableEq

structure Frame where
  height : Nat
  width : Nat
  components : List FrameComponent
  deriving DecidableEq

/-- What the segments before the scan have told. -/
structure Header where
  quantizers : List (Nat × List Nat)
  codes : List (Nat × Code Nat)
  frame : Option Frame

def split (n : Nat) (bytes : List UInt8) : Option (List UInt8 × List UInt8) :=
  if n ≤ bytes.length then some (bytes.take n, bytes.drop n) else none

/-- Quantizers of eight bits. None of their entries is zero. -/
def readQuantizers : (tables : Nat) → List UInt8 → Option (List (Nat × List Nat))
  | 0, bytes => if bytes = [] then some [] else none
  | _ + 1, [] => some []
  | tables + 1, destination :: bytes =>
      match split 64 bytes with
      | none => none
      | some (entries, rest) =>
          if destination.toNat < 4 ∧ 0 ∉ entries then
            (readQuantizers tables rest).map fun read => (destination.toNat, entries.map UInt8.toNat) :: read
          else none

/-- Codes, each told by the counts of its words and their symbols. -/
def readCodes : (tables : Nat) → List UInt8 → Option (List (Nat × Code Nat))
  | 0, bytes => if bytes = [] then some [] else none
  | _ + 1, [] => some []
  | tables + 1, destination :: bytes =>
      match split 16 bytes with
      | none => none
      | some (counts, bytes) =>
          match split (counts.map UInt8.toNat).sum bytes with
          | none => none
          | some (values, rest) =>
              (readCodes tables rest).map fun read =>
                (destination.toNat, PrefixCode.codeOf (PrefixCode.canonical 1 0 (counts.map UInt8.toNat) (values.map UInt8.toNat))) :: read

def readFrameComponents : (count : Nat) → List UInt8 → Option (List FrameComponent)
  | 0, [] => some []
  | count + 1, id :: factors :: quantizer :: bytes =>
      (readFrameComponents count bytes).map fun read =>
        ⟨id.toNat, factors.toNat / 16, factors.toNat % 16, quantizer.toNat⟩ :: read
  | _, _ => none

def readFrame : List UInt8 → Option Frame
  | precision :: high :: low :: high' :: low' :: count :: bytes =>
      if precision = 8 then
        (readFrameComponents count.toNat bytes).map fun components =>
          ⟨256 * high.toNat + low.toNat, 256 * high'.toNat + low'.toNat, components⟩
      else none
  | _ => none

/-- The components of a scan by their identifiers, each with the numbers of its two codes. -/
def readScanComponents : (count : Nat) → List UInt8 → Option (List (Nat × Nat × Nat) × List UInt8)
  | 0, bytes => some ([], bytes)
  | count + 1, id :: codes :: bytes =>
      (readScanComponents count bytes).map fun read => ((id.toNat, codes.toNat / 16, codes.toNat % 16) :: read.1, read.2)
  | _, _ => none

def readScan : List UInt8 → Option (List (Nat × Nat × Nat))
  | count :: bytes =>
      match readScanComponents count.toNat bytes with
      | some (components, [0, 63, 0]) => some components
      | _ => none
  | [] => none

/-- The segments up to the first scan: the header, the components of the scan, and the bytes behind. -/
def readSegments : (segments : Nat) → Header → List UInt8 → Option (Header × List (Nat × Nat × Nat) × List UInt8)
  | segments + 1, header, 0xFF :: marker :: high :: low :: bytes =>
      match split (256 * high.toNat + low.toNat - 2) bytes with
      | none => none
      | some (body, rest) =>
          if marker = 0xDB then
            match readQuantizers 4 body with
            | some read => readSegments segments { header with quantizers := header.quantizers ++ read } rest
            | none => none
          else if marker = 0xC4 then
            match readCodes 8 body with
            | some read => readSegments segments { header with codes := header.codes ++ read } rest
            | none => none
          else if marker = 0xC0 then
            match readFrame body with
            | some read => readSegments segments { header with frame := some read } rest
            | none => none
          else if marker = 0xDA then (readScan body).map fun read => (header, read, rest)
          else if 0xE0 ≤ marker ∧ marker ≤ 0xEF then readSegments segments header rest
          else none
  | _, _, _ => none

/-- The bytes up to the next marker, and from the marker on. A zero behind 0xFF is left out. -/
def unstuff : List UInt8 → Option (List UInt8 × List UInt8)
  | [] => none
  | [c] => if c = 255 then some ([], [c]) else none
  | c :: next :: bytes =>
      if c = 255 then
        if next = 0 then (unstuff bytes).map fun read => (255 :: read.1, read.2) else some ([], c :: next :: bytes)
      else (unstuff (next :: bytes)).map fun read => (c :: read.1, read.2)

/-- Where a block stands: its component, and its column and row among the blocks of the component. -/
structure Place where
  component : Nat
  column : Nat
  row : Nat
  deriving DecidableEq

def greatest (values : List Nat) : Nat := values.foldl max 1

def rounds (size step : Nat) : Nat := (size + step - 1) / step

def unitPlaces (components : List FrameComponent) (column row : Nat) : List Place :=
  components.zipIdx.flatMap fun (component, number) =>
    (List.range component.vertical).flatMap fun j =>
      (List.range component.horizontal).map fun i => ⟨number, column * component.horizontal + i, row * component.vertical + j⟩

def places (frame : Frame) : List Place :=
  (List.range (rounds frame.height (8 * greatest (frame.components.map FrameComponent.vertical)))).flatMap fun row =>
    (List.range (rounds frame.width (8 * greatest (frame.components.map FrameComponent.horizontal)))).flatMap fun column =>
      unitPlaces frame.components column row

structure PictureComponent where
  horizontal : Nat
  vertical : Nat
  quantizer : List Nat
  deriving DecidableEq

structure Picture where
  width : Nat
  height : Nat
  components : List PictureComponent
  blocks : List (Place × List Int)
  deriving DecidableEq

/-- The quantizer and the codes of each component of the scan, in the order of the frame. -/
def resolve (header : Header) : List (FrameComponent × Nat × Nat × Nat) → Option (List (PictureComponent × Code Nat × Code Nat))
  | [] => some []
  | (component, id, dc, ac) :: rest =>
      if component.id = id then
        match header.quantizers.lookup component.quantizer, header.codes.lookup dc, header.codes.lookup (16 + ac) with
        | some quantizer, some dc, some ac =>
            (resolve header rest).map fun read => (⟨component.horizontal, component.vertical, quantizer⟩, dc, ac) :: read
        | _, _, _ => none
      else none

def decodePicture : List UInt8 → Option Picture
  | 0xFF :: 0xD8 :: bytes => do
      let (header, scan, data) ← readSegments 16 ⟨[], [], none⟩ bytes
      let frame ← header.frame
      guard (frame.components.length = scan.length)
      let components ← resolve header (frame.components.zip scan)
      let (coded, behind) ← unstuff data
      guard (behind = [0xFF, 0xD9])
      let (blocks, filling) ← decodeBlocks (fun number => ((components.map Prod.snd)[number]?).getD ([], []))
        ((places frame).map Place.component) (fun _ => 0) (coded.flatMap fun c => PrefixCode.bits 8 c.toNat)
      guard (filling.length < 8 ∧ filling.all id)
      return ⟨frame.width, frame.height, components.map Prod.fst, (places frame).zip blocks⟩
  | _ => none

end ArduinoK210.Jpeg.Decoder
