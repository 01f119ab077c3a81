import ArduinoK210.Jpeg.Room

/-! `Image::save_jpeg` and `Image::compress_jpeg`, and what becomes of a picture over all requests that a program makes. -/

namespace ArduinoK210.Jpeg

open Imaging (Image u32)
open Decoder (decodePicture)
open Tables (Call Enough after asked)

def checkedQuality (quality : Int) : Int := if quality < 1 ∨ quality > 100 then 80 else quality

private theorem checkedQuality_range (quality : Int) : 1 ≤ checkedQuality quality ∧ checkedQuality quality ≤ 100 := by
  unfold checkedQuality
  split <;> omega

def imageInfo (img : Image) (pixel : Nat → UInt8) : ImageInfo := ⟨img.width, img.height, pixel, img.format⟩

def jpegCall (img : Image) (pixel : Nat → UInt8) (size : Nat) (quality : Int) : Call :=
  ⟨some (imageInfo img pixel), some size, checkedQuality quality, .auto, (checkedQuality_range quality).1, (checkedQuality_range quality).2⟩

def estimatedSize (img : Image) : Nat :=
  let estimated := u32 (u32 (img.width * img.height * img.bpp) * 20) / 100
  if estimated < 1024 then 1024 else estimated

/-- The image is one that can be compressed. -/
def shaped (img : Image) : Option (Nat → UInt8) := if img.width = 0 ∨ img.height = 0 ∨ img.bpp = 0 then none else img.pixel

/-- What a request leaves behind: its result, the static variables of the encoder, and the bytes of the file or of the buffer up to
`*jpeg_size`, when there is such a file or when that size is set. -/
structure Answer (F : Type) where
  result : Int
  tables : Tables F
  data : Option (List UInt8)

section Requests
variable {F : Type} (floats : Floats F)

/-- `save_jpeg` behind the call. `opens` tells whether the file can be opened, and `write` how many bytes it takes of those given; it
stores as many. -/
def writeFile (opens : Bool) (write : List UInt8 → Nat) (outcome : Outcome F) : Answer F :=
  if outcome.result ≠ 0 then ⟨-1, outcome.tables, none⟩
  else if opens = false then ⟨-1, outcome.tables, none⟩
  else
    let stored := outcome.buf.buf.take (write outcome.buf.buf)
    if outcome.buf.buf.length ≠ write outcome.buf.buf then ⟨-1, outcome.tables, some stored⟩ else ⟨0, outcome.tables, some stored⟩

def saveJpeg (tables : Tables F) (malloc : Nat → Bool) (opens : Bool) (write : List UInt8 → Nat) (img : Image) (quality : Int) :
    Answer F :=
  match shaped img with
  | none => ⟨-1, tables, none⟩
  | some pixel =>
      if malloc (estimatedSize img) = false then ⟨-1, tables, none⟩
      else
        let call := jpegCall img pixel (estimatedSize img) quality
        writeFile opens write (tables.jpegCompress floats call.src call.dst call.quality call.requested)

/-- `compress_jpeg` behind the call. -/
def setSize (outcome : Outcome F) : Answer F :=
  if outcome.result ≠ 0 then ⟨-1, outcome.tables, none⟩ else ⟨0, outcome.tables, some outcome.buf.buf⟩

/-- `given` tells that none of the two pointers for the output is `NULL`. -/
def compressJpeg (tables : Tables F) (given : Bool) (bufferCapacity : Nat) (img : Image) (quality : Int) : Answer F :=
  match shaped img with
  | none => ⟨-1, tables, none⟩
  | some pixel =>
      if given = false then ⟨-1, tables, none⟩
      else if bufferCapacity < 1024 then ⟨-1, tables, none⟩
      else
        let call := jpegCall img pixel bufferCapacity quality
        setSize (tables.jpegCompress floats call.src call.dst call.quality call.requested)

/-- A request of the program, with what the rest of the world answers to it. -/
inductive Request where
  | save (malloc : Nat → Bool) (opens : Bool) (write : List UInt8 → Nat) (img : Image) (quality : Int)
  | compress (given : Bool) (bufferCapacity : Nat) (img : Image) (quality : Int)

namespace Request

def answer (tables : Tables F) : Request → Answer F
  | save malloc opens write img quality => saveJpeg floats tables malloc opens write img quality
  | compress given bufferCapacity img quality => compressJpeg floats tables given bufferCapacity img quality

def call : Request → Option Call
  | save malloc _ _ img quality =>
      (shaped img).bind fun pixel => if malloc (estimatedSize img) then some (jpegCall img pixel (estimatedSize img) quality) else none
  | compress given bufferCapacity img quality =>
      (shaped img).bind fun pixel =>
        if given = true ∧ 1024 ≤ bufferCapacity then some (jpegCall img pixel bufferCapacity quality) else none

def reached (requests : List Request) : Tables F :=
  requests.foldl (fun tables request => (request.answer floats tables).tables) (Tables.start floats)

variable {floats}

private theorem writeFile_tables (opens : Bool) (write : List UInt8 → Nat) (outcome : Outcome F) :
    (writeFile opens write outcome).tables = outcome.tables := by
  unfold writeFile
  split
  · rfl
  · split
    · rfl
    · dsimp only
      split <;> rfl

private theorem setSize_tables (outcome : Outcome F) : (setSize outcome).tables = outcome.tables := by
  unfold setSize
  split <;> rfl

theorem answer_tables (tables : Tables F) (request : Request) :
    (request.answer floats tables).tables =
      request.call.elim tables fun call => (tables.jpegCompress floats call.src call.dst call.quality call.requested).tables := by
  cases request with
  | save malloc opens write img quality =>
    dsimp only [answer, saveJpeg, call]
    cases shaped img with
    | none => rfl
    | some pixel =>
      dsimp only [Option.bind_some]
      by_cases room : malloc (estimatedSize img) = true
      · rw [if_neg (by rw [room]; decide), if_pos room, writeFile_tables]
        rfl
      · rw [if_pos (eq_false_of_ne_true room), if_neg room]
        rfl
  | compress given bufferCapacity img quality =>
    dsimp only [answer, compressJpeg, call]
    cases shaped img with
    | none => rfl
    | some pixel =>
      dsimp only [Option.bind_some]
      by_cases pointers : given = true
      · rw [if_neg (by rw [pointers]; decide)]
        by_cases small : bufferCapacity < 1024
        · rw [if_pos small, if_neg fun both => absurd both.2 (Nat.not_le.mpr small)]
          rfl
        · rw [if_neg small, if_pos ⟨pointers, Nat.not_lt.mp small⟩, setSize_tables]
          rfl
      · rw [if_pos (eq_false_of_ne_true pointers), if_neg fun both => pointers both.1]
        rfl

/-- The requests of a program are a sequence of calls. -/
theorem reached_eq (requests : List Request) : reached floats requests = after floats (requests.filterMap call) := by
  induction requests using List.reverseRecOn with
  | nil => rfl
  | append_singleton requests request ih =>
    have step : reached floats (requests ++ [request]) = (request.answer floats (reached floats requests)).tables := by
      rw [reached, List.foldl_append]
      rfl
    rw [step, answer_tables, ih, List.filterMap_append, after, after, List.foldl_append]
    cases made : request.call with
    | none =>
      rw [List.filterMap_cons_none made]
      rfl
    | some call =>
      rw [List.filterMap_cons_some made]
      rfl

private theorem writeFile_data {opens : Bool} {write : List UInt8 → Nat} {outcome : Outcome F} (zero : (writeFile opens write outcome).result = 0)
    {data : List UInt8} (stored : (writeFile opens write outcome).data = some data) : outcome.result = 0 ∧ outcome.buf.buf = data := by
  unfold writeFile at zero stored
  dsimp only at zero stored
  by_cases failed : outcome.result ≠ 0
  · rw [if_pos failed] at zero
    cases zero
  · rw [if_neg failed] at zero stored
    by_cases closed : opens = false
    · rw [if_pos closed] at zero
      cases zero
    · rw [if_neg closed] at zero stored
      by_cases short : outcome.buf.buf.length ≠ write outcome.buf.buf
      · rw [if_pos short] at zero
        cases zero
      · rw [if_neg short, ← not_not.mp short, List.take_length] at stored
        exact ⟨not_not.mp failed, Option.some.inj stored⟩

private theorem setSize_data {outcome : Outcome F} (zero : (setSize outcome).result = 0) {data : List UInt8}
    (stored : (setSize outcome).data = some data) : outcome.result = 0 ∧ outcome.buf.buf = data := by
  unfold setSize at zero stored
  by_cases failed : outcome.result ≠ 0
  · rw [if_pos failed] at zero
    cases zero
  · rw [if_neg failed] at stored
    exact ⟨not_not.mp failed, Option.some.inj stored⟩

/-- A request that succeeds with data has made its call, which has made the data. -/
theorem answer_data {tables : Tables F} {request : Request} (zero : (request.answer floats tables).result = 0) {data : List UInt8}
    (stored : (request.answer floats tables).data = some data) :
    ∃ call, request.call = some call ∧ (tables.jpegCompress floats call.src call.dst call.quality call.requested).result = 0 ∧
      (tables.jpegCompress floats call.src call.dst call.quality call.requested).buf.buf = data := by
  cases request with
  | save malloc opens write img quality =>
    dsimp only [answer, saveJpeg] at zero stored
    dsimp only [call]
    cases shape : shaped img with
    | none =>
      rw [shape] at zero
      cases zero
    | some pixel =>
      rw [shape] at zero stored
      dsimp only at zero stored
      by_cases room : malloc (estimatedSize img) = false
      · rw [if_pos room] at zero
        cases zero
      · rw [if_neg room] at zero stored
        exact ⟨_, if_pos (eq_true_of_ne_false room), writeFile_data zero stored⟩
  | compress given bufferCapacity img quality =>
    dsimp only [answer, compressJpeg] at zero stored
    dsimp only [call]
    cases shape : shaped img with
    | none =>
      rw [shape] at zero
      cases zero
    | some pixel =>
      rw [shape] at zero stored
      dsimp only at zero stored
      by_cases pointers : given = false
      · rw [if_pos pointers] at zero
        cases zero
      · rw [if_neg pointers] at zero stored
        by_cases small : bufferCapacity < 1024
        · rw [if_pos small] at zero
          cases zero
        · rw [if_neg small] at zero stored
          exact ⟨_, if_pos ⟨eq_true_of_ne_false pointers, Nat.not_lt.mp small⟩, setSize_data zero stored⟩

private theorem call_requested {request : Request} {call : Call} (made : request.call = some call) :
    call.requested = .auto ∧ ∃ img pixel size, call.src = some (imageInfo img pixel) ∧ call.dst = some size := by
  cases request with
  | save malloc opens write img quality =>
    obtain ⟨pixel, -, called⟩ := Option.bind_eq_some_iff.mp made
    split at called
    · cases called
      exact ⟨rfl, img, pixel, _, rfl, rfl⟩
    · cases called
  | compress given bufferCapacity img quality =>
    obtain ⟨pixel, -, called⟩ := Option.bind_eq_some_iff.mp made
    split at called
    · cases called
      exact ⟨rfl, img, pixel, _, rfl, rfl⟩
    · cases called

def qualities (requests : List Request) : List Int := asked (requests.filterMap call)

private theorem qualities_append {request : Request} {call : Call} (made : request.call = some call) (requests : List Request) :
    qualities (requests ++ [request]) = asked (requests.filterMap Request.call ++ [call]) := by
  rw [qualities, List.filterMap_append, List.filterMap_cons_some made]
  rfl

def repaint (pixel : Nat → UInt8) : Request → Request
  | save malloc opens write img quality => save malloc opens write { img with pixel := img.pixel.map fun _ => pixel } quality
  | compress given bufferCapacity img quality => compress given bufferCapacity { img with pixel := img.pixel.map fun _ => pixel } quality

end Request

open Request (reached qualities repaint)

/-- What a program has saved or compressed is a picture that a reader gets back, once it has asked for another quality than the best. -/
theorem picture_of_requests {floats : Floats F} (accurate : floats.Accurate) {requests : List Request} {request : Request} {call : Call}
    (made : request.call = some call) (other : ∃ quality ∈ qualities (requests ++ [request]), quality ≠ 0) {src : ImageInfo} {size : Nat}
    (image : call.src = some src) (buffer : call.dst = some size) (wide : src.w < 65536) (high : src.h < 65536) (small : size < 2 ^ 31)
    (zero : (request.answer floats (reached floats requests)).result = 0) {data : List UInt8}
    (stored : (request.answer floats (reached floats requests)).data = some data) (room : data.length + 1 ≠ size) :
    decodePicture data =
      some (pictureOf floats (Tables.ready floats (scaled call.quality)) src (subsampling src call.quality .auto)) := by
  obtain ⟨call', made', zero', rfl⟩ := Request.answer_data zero stored
  cases made.symm.trans made'
  rw [Request.qualities_append made] at other
  rw [Request.reached_eq] at zero' room ⊢
  rw [← (Request.call_requested made).1]
  exact Tables.decodePicture_of_calls accurate image buffer other wide high small zero' room

def dot : Image := ⟨1, 1, 1, .grayscale, some fun _ => 200⟩

theorem picture_of_requests_dot :
    ∃ data, ((Request.compress true 2048 dot 80).answer rational (reached rational [])).data = some data ∧
      decodePicture data =
        some (pictureOf rational (Tables.ready rational 40) (imageInfo dot fun _ => 200) (subsampling (imageInfo dot fun _ => 200) 80 .auto)) := by
  obtain ⟨zero, room⟩ := @Tables.speck_enough (jpegCall dot (fun _ => 200) 2048 80) rfl 2048 rfl (by decide) (by decide)
  have answer : (Request.compress true 2048 dot 80).answer rational (reached rational []) = _ := if_neg (not_not.mpr zero)
  have zero' := congrArg Answer.result answer
  have stored := congrArg Answer.data answer
  exact ⟨_, stored, @picture_of_requests Rat rational rational_accurate [] _ (jpegCall dot (fun _ => 200) 2048 80) rfl ⟨40, by decide, by decide⟩
    _ 2048 rfl rfl (by decide) (by decide) (by decide) zero' _ stored room⟩

/-- As long as a program has asked for the best quality only, it makes the same of every image of one size, and a reader refuses it. -/
theorem blank_of_requests (floats : Floats F) {requests : List Request} {request : Request}
    (best : ∀ quality ∈ qualities (requests ++ [request]), quality = 0) :
    (∀ pixel, (request.repaint pixel).answer floats (reached floats requests) = request.answer floats (reached floats requests)) ∧
      ((request.answer floats (reached floats requests)).result = 0 →
        ∀ data, (request.answer floats (reached floats requests)).data = some data → decodePicture data = none) := by
  constructor
  · intro pixel
    have shapes : ∀ img : Image, shaped { img with pixel := img.pixel.map fun _ => pixel } = (shaped img).map fun _ => pixel := by
      intro img
      unfold shaped
      dsimp only
      split <;> rfl
    have same : ∀ (img : Image) (own : Nat → UInt8) (size : Nat) (quality : Int), request.call = some (jpegCall img own size quality) →
        (reached floats requests).jpegCompress floats (some (imageInfo img pixel)) (some size) (checkedQuality quality) .auto =
          (reached floats requests).jpegCompress floats (some (imageInfo img own)) (some size) (checkedQuality quality) .auto := by
      intro img own size quality made
      rw [Request.qualities_append made] at best
      rw [Request.reached_eq]
      exact @Tables.blank_of_calls F floats _ (jpegCall img own size quality) best _ rfl pixel
    cases request with
    | save malloc opens write img quality =>
      dsimp only [repaint, Request.answer, saveJpeg]
      rw [shapes]
      cases shape : shaped img with
      | none => rfl
      | some own =>
        dsimp only [Option.map]
        by_cases room : malloc (estimatedSize img) = false
        · rw [if_pos room]
          exact if_pos room
        · have made : (Request.save malloc opens write img quality).call = some (jpegCall img own (estimatedSize img) quality) := by
            dsimp only [Request.call]
            rw [shape]
            exact if_pos (eq_true_of_ne_false room)
          rw [if_neg room]
          exact (if_neg room).trans (congrArg (writeFile opens write) (same img own (estimatedSize img) quality made))
    | compress given bufferCapacity img quality =>
      dsimp only [repaint, Request.answer, compressJpeg]
      rw [shapes]
      cases shape : shaped img with
      | none => rfl
      | some own =>
        dsimp only [Option.map]
        by_cases pointers : given = true ∧ 1024 ≤ bufferCapacity
        · have made : (Request.compress given bufferCapacity img quality).call = some (jpegCall img own bufferCapacity quality) := by
            dsimp only [Request.call]
            rw [shape]
            exact if_pos pointers
          have pointers' : ¬given = false := ne_false_of_eq_true pointers.1
          have least : ¬bufferCapacity < 1024 := Nat.not_lt.mpr pointers.2
          rw [if_neg pointers', if_neg pointers', if_neg least, if_neg least]
          exact congrArg setSize (same img own bufferCapacity quality made)
        · by_cases given' : given = false
          · rw [if_pos given', if_pos given']
          · have few : bufferCapacity < 1024 := by
              by_contra enough
              exact pointers ⟨eq_true_of_ne_false given', Nat.not_lt.mp enough⟩
            rw [if_neg given', if_neg given', if_pos few, if_pos few]
  · intro zero data stored
    obtain ⟨call, made, zero', rfl⟩ := Request.answer_data zero stored
    obtain ⟨-, img, pixel, size, image, buffer⟩ := Request.call_requested made
    rw [Request.qualities_append made] at best
    rw [Request.reached_eq] at zero' ⊢
    exact Tables.refused_of_calls floats best image buffer zero'

theorem blank_of_requests_dot :
    ((Request.compress true 2048 dot 100).repaint fun _ => 7).answer rational (reached rational []) =
        (Request.compress true 2048 dot 100).answer rational (reached rational []) ∧
      ∃ data, ((Request.compress true 2048 dot 100).answer rational (reached rational [])).data = some data ∧ decodePicture data = none := by
  obtain ⟨same, refused⟩ := @blank_of_requests Rat rational [] (.compress true 2048 dot 100) (by decide)
  obtain ⟨zero, -⟩ := @Tables.speck_enough (jpegCall dot (fun _ => 200) 2048 100) rfl 2048 rfl (by decide) (by decide)
  have answer : (Request.compress true 2048 dot 100).answer rational (reached rational []) = _ := if_neg (not_not.mpr zero)
  have zero' := congrArg Answer.result answer
  have stored := congrArg Answer.data answer
  exact ⟨same _, _, stored, refused zero' _ stored⟩

end Requests

end ArduinoK210.Jpeg
