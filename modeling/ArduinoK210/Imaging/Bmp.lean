import ArduinoK210.Imaging.RoundTrip

/-! `Image::save_bmp` and `Image::load_bmp`. What stb_image_write makes of an image is the concatenation of the pieces that
it passes to its callback, and stb_image is what it answers to the bytes of a file. -/

namespace ArduinoK210.Imaging

open Nor (slice)

namespace Bmp

def bytesLe (count : Nat) (value : Nat) : List UInt8 := (List.range count).map fun k => UInt8.ofNat (value / 256 ^ k)

def pad (x : Nat) : Nat := (4 - x * 3 % 4) % 4

def rowSize (x : Nat) : Nat := x * 3 + pad x

/-- `"11 4 22 4" "4 44 22 444444"` of `stbi_write_bmp_core`. -/
def header (x y : Nat) : List UInt8 :=
  bytesLe 1 0x42 ++ bytesLe 1 0x4D ++ bytesLe 4 (14 + 40 + rowSize x * y) ++ bytesLe 2 0 ++ bytesLe 2 0 ++ bytesLe 4 (14 + 40) ++
  bytesLe 4 40 ++ bytesLe 4 x ++ bytesLe 4 y ++ bytesLe 2 1 ++ bytesLe 2 24 ++
  bytesLe 4 0 ++ bytesLe 4 0 ++ bytesLe 4 0 ++ bytesLe 4 0 ++ bytesLe 4 0 ++ bytesLe 4 0

def row (x : Nat) (data : Nat → UInt8) (j : Nat) : List UInt8 :=
  ((List.range x).flatMap fun i => [data ((j * x + i) * 3 + 2), data ((j * x + i) * 3 + 1), data ((j * x + i) * 3)]) ++
    List.replicate (pad x) 0

def file (x y : Nat) (data : Nat → UInt8) : List UInt8 := header x y ++ (List.range y).reverse.flatMap (row x data)

end Bmp

/-- `struct save_bmp_temp_file`: the bytes up to `offset`. -/
structure SaveBmpTempFile where
  buffer : List UInt8
  size : Nat

def stbiWriteFunc (buff : SaveBmpTempFile) (data : List UInt8) : SaveBmpTempFile :=
  if data.length = 0 then buff
  else if buff.buffer.length + data.length > buff.size then buff
  else { buff with buffer := buff.buffer ++ data }

namespace Image

/-- `pieces` are the calls of the callback. `opens` tells whether the file can be opened, and `write` how many bytes it
takes of those given; it stores as many. -/
def saveBmp (malloc : Nat → Bool) (pieces : List (List UInt8)) (opens : Bool) (write : List UInt8 → Nat) (img : Image) :
    Int × Option (List UInt8) :=
  if img.format ≠ .rgb888 then (-1, none)
  else if img.pixel.isNone ∨ img.width = 0 ∨ img.height = 0 ∨ img.bpp = 0 then (-1, none)
  else
    let size := u32 (u32 (img.width * img.height * img.bpp) + 512)
    if malloc size = false then (-1, none)
    else if 2147483648 ≤ img.width ∨ 2147483648 ≤ img.height then (-1, none)
    else
      let buff := pieces.foldl stbiWriteFunc ⟨[], size⟩
      if opens = false then (-1, none)
      else
        let stored := buff.buffer.take (write buff.buffer)
        if buff.buffer.length ≠ write buff.buffer then (-1, some stored) else (0, some stored)

/-- What `stbi_load_from_memory` answers. -/
structure Loaded where
  img : Option (Nat → UInt8)
  x : Nat
  y : Nat
  comp : Nat

/-- `file` is nothing when it cannot be opened. -/
def loadBmp (malloc : Nat → Bool) (infoFromMemory : List UInt8 → Int) (loadFromMemory : List UInt8 → Loaded) (dst : Image)
    (file : Option (List UInt8)) : Int × Image :=
  match file with
  | none => (-1, dst)
  | some content =>
    let hdr := content.take 256
    if hdr.length ≠ 256 then (-1, dst)
    else if infoFromMemory hdr ≠ 1 then (-1, dst)
    else if malloc content.length = false then (-1, dst)
    else
      let loaded := loadFromMemory content
      if loaded.img.isNone ∨ loaded.comp ≠ 3 then (-1, dst)
      else (0, ⟨loaded.x, loaded.y, Format.rgb888.bpp, .rgb888, loaded.img⟩)

end Image

namespace Bmp

private theorem bytesLe_length (count value : Nat) : (bytesLe count value).length = count := by
  rw [bytesLe, List.length_map, List.length_range]

private theorem row_length (x : Nat) (data : Nat → UInt8) (j : Nat) : (row x data j).length = rowSize x := by
  rw [row, List.length_append, List.length_replicate, List.length_flatMap, rowSize]
  simp

private theorem file_length (x y : Nat) (data : Nat → UInt8) : (file x y data).length = 54 + y * rowSize x := by
  have front : (header x y).length = 54 := by simp only [header, List.length_append, bytesLe_length]
  rw [file, List.length_append, front, List.length_flatMap]
  simp [row_length]

private theorem rowSize_le (x : Nat) : x * 3 ≤ rowSize x := Nat.le_add_right _ _

end Bmp

namespace SaveBmpTempFile

private theorem stbiWriteFunc_size (buff : SaveBmpTempFile) (data : List UInt8) : (stbiWriteFunc buff data).size = buff.size := by
  unfold stbiWriteFunc
  split
  · rfl
  · split <;> rfl

theorem staged {pieces : List (List UInt8)} {buff : SaveBmpTempFile} (fits : buff.buffer.length + pieces.flatten.length ≤ buff.size) :
    (pieces.foldl stbiWriteFunc buff).buffer = buff.buffer ++ pieces.flatten := by
  induction pieces generalizing buff with
  | nil => simp
  | cons data pieces ih =>
    rw [List.flatten_cons, List.length_append] at fits
    have written : (stbiWriteFunc buff data).buffer = buff.buffer ++ data := by
      unfold stbiWriteFunc
      split
      next none => rw [List.length_eq_zero_iff.mp none, List.append_nil]
      next => rw [if_neg (by omega)]
    rw [List.foldl_cons, ih, written, List.flatten_cons, List.append_assoc]
    rw [written, stbiWriteFunc_size, List.length_append]
    omega

theorem bounded (pieces : List (List UInt8)) {buff : SaveBmpTempFile} (room : buff.buffer.length ≤ buff.size) :
    (pieces.foldl stbiWriteFunc buff).buffer.length ≤ buff.size := by
  induction pieces generalizing buff with
  | nil => exact room
  | cons data pieces ih =>
    rw [List.foldl_cons, ← stbiWriteFunc_size buff data]
    apply ih
    unfold stbiWriteFunc
    split
    · exact room
    · split
      · exact room
      next fits =>
        dsimp only
        rw [List.length_append]
        omega

end SaveBmpTempFile

namespace Image

open SaveBmpTempFile

variable {malloc : Nat → Bool} {pieces : List (List UInt8)} {opens : Bool} {write : List UInt8 → Nat} {img dst : Image}
  {infoFromMemory : List UInt8 → Int} {loadFromMemory : List UInt8 → Loaded} {kept : Option (List UInt8)}

private theorem saveBmp_stored (saved : img.saveBmp malloc pieces opens write = (0, kept)) :
    kept = some (pieces.foldl stbiWriteFunc ⟨[], u32 (u32 (img.width * img.height * img.bpp) + 512)⟩).buffer := by
  unfold saveBmp at saved
  split at saved
  · cases saved
  · split at saved
    · cases saved
    · dsimp only at saved
      split at saved
      · cases saved
      · split at saved
        · cases saved
        · split at saved
          · cases saved
          · split at saved
            · cases saved
            next whole =>
              have taken := (Prod.mk.inj saved).2.symm
              rwa [← not_not.mp whole, List.take_length] at taken

private theorem loadBmp_short {content : List UInt8} (short : content.length < 256) :
    loadBmp malloc infoFromMemory loadFromMemory dst (some content) = (-1, dst) := by
  unfold loadBmp
  dsimp only
  rw [if_pos]
  rw [List.length_take]
  omega

private theorem loadBmp_loads {content : List UInt8} (long : 256 ≤ content.length) (info : infoFromMemory (content.take 256) = 1)
    (granted : malloc content.length = true) {mem : Nat → UInt8} {x y : Nat} (decodes : loadFromMemory content = ⟨some mem, x, y, 3⟩) :
    loadBmp malloc infoFromMemory loadFromMemory dst (some content) = (0, ⟨x, y, 3, .rgb888, some mem⟩) := by
  have header : (content.take 256).length = 256 := by
    rw [List.length_take]
    omega
  unfold loadBmp
  simp [header, info, granted, decodes, Format.bpp]

/-- The stored file is the BMP of the image, and the image is loaded from it. -/
structure Kept (malloc : Nat → Bool) (infoFromMemory : List UInt8 → Int) (loadFromMemory : List UInt8 → Loaded) (img dst : Image)
    (data : Nat → UInt8) (stored : Option (List UInt8)) : Prop where
  complete : stored = some (Bmp.file img.width img.height data)
  loads : (loadBmp malloc infoFromMemory loadFromMemory dst stored).1 = 0
  same : Same (loadBmp malloc infoFromMemory loadFromMemory dst stored).2 img

/-- What stb_image makes of the file of an image: its header is accepted, and its pixels are those of the image. -/
structure Decodes (infoFromMemory : List UInt8 → Int) (loadFromMemory : List UInt8 → Loaded) (x y : Nat) (data : Nat → UInt8) : Prop where
  info : 256 ≤ (Bmp.file x y data).length → infoFromMemory ((Bmp.file x y data).take 256) = 1
  load : ∃ mem, loadFromMemory (Bmp.file x y data) = ⟨some mem, x, y, 3⟩ ∧ slice mem 0 (x * y * 3) = slice data 0 (x * y * 3)

/-- An image that was saved is kept exactly when its file has the 256 bytes that the loader reads first, and no more than
the pixels without their padding and 512. -/
theorem save_kept_iff {data : Nat → UInt8} (rgb : img.format = .rgb888) (bpp : img.bpp = 3) (pixels : img.pixel = some data)
    (small : 54 + img.height * Bmp.rowSize img.width < 2147483648)
    (cut : pieces.flatten = Bmp.file img.width img.height data)
    (saved : img.saveBmp malloc pieces opens write = (0, kept))
    (decodes : Decodes infoFromMemory loadFromMemory img.width img.height data)
    (granted : malloc (54 + img.height * Bmp.rowSize img.width) = true) :
    Kept malloc infoFromMemory loadFromMemory img dst data kept ↔
      256 ≤ 54 + img.height * Bmp.rowSize img.width ∧
        54 + img.height * Bmp.rowSize img.width ≤ img.width * img.height * 3 + 512 := by
  have length := Bmp.file_length img.width img.height data
  have area : img.width * img.height * 3 ≤ img.height * Bmp.rowSize img.width := by
    rw [Nat.mul_comm img.width, Nat.mul_assoc]
    exact Nat.mul_le_mul_left _ (Bmp.rowSize_le img.width)
  have size : u32 (u32 (img.width * img.height * img.bpp) + 512) = img.width * img.height * 3 + 512 := by
    rw [bpp]
    simp only [u32, u32Range]
    omega
  have stored := saveBmp_stored saved
  rw [size] at stored
  constructor
  · rintro ⟨complete, loads, _⟩
    have room := @bounded pieces ⟨[], img.width * img.height * 3 + 512⟩ (Nat.zero_le _)
    rw [stored, Option.some.injEq] at complete
    rw [complete, length] at room
    refine ⟨?_, room⟩
    by_contra short
    rw [stored, complete, loadBmp_short (by omega)] at loads
    have refused : (-1 : Int) = 0 := loads
    omega
  · rintro ⟨header, room⟩
    have whole : (pieces.foldl stbiWriteFunc ⟨[], img.width * img.height * 3 + 512⟩).buffer =
        Bmp.file img.width img.height data := by
      rw [staged (by rw [cut, length, List.length_nil, Nat.zero_add]; exact room), cut, List.nil_append]
    obtain ⟨mem, decoded, equal⟩ := decodes.load
    have complete : kept = some (Bmp.file img.width img.height data) := by rw [stored, whole]
    have long : 256 ≤ (Bmp.file img.width img.height data).length := length ▸ header
    have memory : malloc (Bmp.file img.width img.height data).length = true := length ▸ granted
    have loaded : loadBmp malloc infoFromMemory loadFromMemory dst kept =
        (0, ⟨img.width, img.height, 3, .rgb888, some mem⟩) := by
      rw [complete]
      exact loadBmp_loads long (decodes.info long) memory decoded
    have fits : u32 (img.width * img.height * 3) = img.width * img.height * 3 := by
      simp only [u32, u32Range]
      omega
    refine ⟨complete, by rw [loaded], ?_⟩
    rw [loaded]
    refine ⟨rfl, rfl, bpp.symm, rgb.symm, ?_⟩
    simp only [bytes, pixels, bpp, fits]
    exact equal

/-- A black image, saved in one piece by a file system with room. -/
def blackImage (x y : Nat) : Image := ⟨x, y, 3, .rgb888, some fun _ => 0⟩

def blackFile (x y : Nat) : List UInt8 := Bmp.file x y fun _ => 0

private theorem blackImage_saved {x y : Nat} (positive : 0 < x ∧ 0 < y ∧ x < 2147483648 ∧ y < 2147483648)
    (fits : 54 + y * Bmp.rowSize x ≤ u32 (u32 (x * y * 3) + 512)) :
    (blackImage x y).saveBmp (fun _ => true) [blackFile x y] true List.length = (0, some (blackFile x y)) := by
  have length : (blackFile x y).length = 54 + y * Bmp.rowSize x := Bmp.file_length x y _
  have whole : (stbiWriteFunc ⟨[], u32 (u32 (x * y * 3) + 512)⟩ (blackFile x y)).buffer = blackFile x y := by
    have stagedOne := @staged [blackFile x y] ⟨[], u32 (u32 (x * y * 3) + 512)⟩ (by simpa [length] using fits)
    simpa using stagedOne
  obtain ⟨wide, high, narrow, low⟩ := positive
  simp [saveBmp, blackImage, wide.ne', high.ne', Nat.not_le.mpr narrow, Nat.not_le.mpr low, whole]

def blackLoaded (x y : Nat) (content : List UInt8) : Loaded :=
  if content = blackFile x y then ⟨some fun _ => 0, x, y, 3⟩ else ⟨none, 0, 0, 0⟩

def bmpInfo (content : List UInt8) : Int := if content.take 2 = [0x42, 0x4D] then 1 else 0

theorem save_kept_black : Kept (fun _ => true) bmpInfo (blackLoaded 16 16) (blackImage 16 16) (blackImage 1 1) (fun _ => 0) (some (blackFile 16 16)) ↔
    256 ≤ 54 + 16 * Bmp.rowSize 16 ∧ 54 + 16 * Bmp.rowSize 16 ≤ 16 * 16 * 3 + 512 := by
  have decodes : Decodes bmpInfo (blackLoaded 16 16) 16 16 fun _ => 0 := by
    refine ⟨fun _ => rfl, fun _ => 0, if_pos rfl, rfl⟩
  exact save_kept_iff rfl rfl rfl (by decide) (List.flatten_singleton) (blackImage_saved (by decide) (by decide)) decodes rfl

/-- A file of 58 bytes: the loader wants 256. -/
theorem one_pixel_lost :
    (blackImage 1 1).saveBmp (fun _ => true) [blackFile 1 1] true List.length = (0, some (blackFile 1 1)) ∧
      ¬ Kept (fun _ => true) bmpInfo (blackLoaded 1 1) (blackImage 1 1) (blackImage 1 1) (fun _ => 0) (some (blackFile 1 1)) := by
  refine ⟨blackImage_saved (by decide) (by decide), fun kept => ?_⟩
  have length : (blackFile 1 1).length = 58 := Bmp.file_length 1 1 _
  have refused := kept.loads
  rw [loadBmp_short (by omega)] at refused
  have wrong : (-1 : Int) = 0 := refused
  omega

end Image

end ArduinoK210.Imaging
