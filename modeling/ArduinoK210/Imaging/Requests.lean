import ArduinoK210.Imaging.Fused
import ArduinoK210.Imaging.Resize

/-! How many bytes the calls that make a pixel buffer ask for. -/

namespace ArduinoK210.Imaging

namespace Image

def construct (malloc : Nat → Option (Nat → UInt8)) (width height : Nat) (format : Format) (create : Bool) : Image :=
  ⟨width, height, format.bpp, format, if create then malloc (u32 (width * height * format.bpp)) else none⟩

/-- What `resize` returns once its loops have come to their end, wherever they wrote. -/
def resizeStatus (malloc : Nat → Option (Nat → UInt8)) (src dst : Image) (width height : Nat) (create : Bool) : Int :=
  match src.pixel with
  | none => -1
  | some _ =>
      if create = false ∧ dst.pixel.isNone then -1
      else
        match if create then malloc (u32 (width * height * src.bpp)) else dst.pixel with
        | none => -1
        | some _ => if src.format = .invalid then -1 else 0

def resizeToNewFormatStatus (malloc : Nat → Option (Nat → UInt8)) (src dst : Image) (width height : Nat) (format : Format)
    (create : Bool) : Int :=
  match src.pixel with
  | none => -1
  | some _ =>
      match createDestImage malloc format { src with width := width, height := height } dst create with
      | (none, _) => -1
      | (some _, dst) =>
          if src.format = format then resizeStatus malloc src dst width height false
          else if src.format = .invalid ∨ format = .invalid then -1
          else 0

variable {malloc : Nat → Option (Nat → UInt8)} {src dst out : Image} {capacity width height : Nat} {create : Bool} {code : Int}

private theorem resize_status (done : resize malloc src dst capacity width height create = some (code, out)) :
    code = resizeStatus malloc src dst width height create := by
  unfold resize at done
  unfold resizeStatus
  cases pixels : src.pixel with
  | none =>
    rw [pixels] at done
    cases done
    rfl
  | some source =>
    rw [pixels] at done
    dsimp only at done ⊢
    by_cases refused : create = false ∧ dst.pixel.isNone
    · rw [if_pos refused] at done ⊢
      cases done
      rfl
    · rw [if_neg refused] at done ⊢
      cases granted : if create then malloc (u32 (width * height * src.bpp)) else dst.pixel with
      | none =>
        rw [granted] at done
        cases done
        rfl
      | some buffer =>
        rw [granted] at done
        dsimp only [resizeSteps] at done ⊢
        cases format : src.format with
        | invalid =>
          simp only [format] at done
          cases done
          rfl
        | _ =>
          simp only [format, Option.map_eq_some_iff] at done
          obtain ⟨_, _, same⟩ := done
          cases same
          rfl

theorem resizeToNewFormat_status {format : Format}
    (done : resizeToNewFormat malloc src dst capacity width height format create = some (code, out)) :
    code = resizeToNewFormatStatus malloc src dst width height format create := by
  unfold resizeToNewFormat at done
  unfold resizeToNewFormatStatus
  cases pixels : src.pixel with
  | none =>
    rw [pixels] at done
    cases done
    rfl
  | some source =>
    rw [pixels] at done
    dsimp only at done ⊢
    generalize createDestImage malloc format _ dst create = dest at done ⊢
    obtain ⟨made, after⟩ := dest
    cases made with
    | none =>
      cases done
      rfl
    | some buffer =>
      dsimp only at done ⊢
      by_cases same : src.format = format
      · rw [if_pos same] at done ⊢
        exact resize_status done
      · rw [if_neg same] at done ⊢
        unfold newFormatSteps at done
        by_cases invalid : src.format = .invalid ∨ format = .invalid
        · rw [if_pos invalid] at done ⊢
          cases done
          rfl
        · rw [if_neg invalid] at done ⊢
          simp only [Option.map_eq_some_iff] at done
          obtain ⟨_, _, same⟩ := done
          cases same
          rfl

end Image

/-- The calls that allocate a pixel buffer. -/
inductive Allocation where
  | created (width height : Nat) (format : Format)
  | cut (src dst : Image) (r : Rectangle)
  | resize (src dst : Image) (width height : Nat)
  | convert (format : Format) (src dst : Image)
  | cutToNewFormat (src dst : Image) (r : Rectangle) (format : Format)
  | resizeToNewFormat (src dst : Image) (width height : Nat) (format : Format)

namespace Allocation

def shape : Allocation → Image
  | .created width height format => ⟨width, height, format.bpp, format, none⟩
  | .cut src _ r => ⟨r.width, r.height, src.bpp, src.format, none⟩
  | .resize src _ width height => ⟨width, height, src.bpp, src.format, none⟩
  | .convert format src _ => ⟨src.width, src.height, format.bpp, format, none⟩
  | .cutToNewFormat _ _ r format => ⟨r.width, r.height, format.bpp, format, none⟩
  | .resizeToNewFormat _ _ width height format => ⟨width, height, format.bpp, format, none⟩

/-- Its bytes, and how many the allocator is asked for. -/
def needed (call : Allocation) : Nat := call.shape.width * call.shape.height * call.shape.bpp

def requested (call : Allocation) : Nat := u32 call.needed

/-- What a call returns. The constructor returns nothing, and succeeds when it has a buffer. -/
def status (malloc : Nat → Option (Nat → UInt8)) : Allocation → Int
  | .created width height format => if (Image.construct malloc width height format true).pixel.isSome then 0 else -1
  | .cut src dst r => (Image.cut malloc src dst r true).1
  | .resize src dst width height => Image.resizeStatus malloc src dst width height true
  | .convert format src dst => (Image.conversion format malloc src dst true).1
  | .cutToNewFormat src dst r format => (Image.cutToNewFormat malloc src dst r format true).1
  | .resizeToNewFormat src dst width height format => Image.resizeToNewFormatStatus malloc src dst width height format true

/-- Calls that fail with any allocator: for want of pixels, by the test of the rectangle, or for a pair of formats. -/
def Refused : Allocation → Prop
  | .created .. => False
  | .cut src _ r => src.pixel = none ∨ r.TooLarge src ∨ src.format = .invalid
  | .resize src _ _ _ => src.pixel = none ∨ src.format = .invalid
  | .convert format src _ => src.pixel = none ∨ src.format = .invalid ∨ format = .invalid
  | .cutToNewFormat src _ r format =>
      src.pixel = none ∨ r.TooLarge src ∨ ¬ (src.format = format ∨ Image.Accepted src.format format)
  | .resizeToNewFormat src _ _ _ format => src.pixel = none ∨ src.format = .invalid ∨ format = .invalid

end Allocation

namespace Image

variable {malloc : Nat → Option (Nat → UInt8)} {src : Image} {r : Rectangle} {format : Format} {width height : Nat}

private theorem cut_zero_iff (dst : Image) : (cut malloc src dst r true).1 = 0 ↔
    ¬ (src.pixel = none ∨ r.TooLarge src ∨ src.format = .invalid) ∧
      ∃ buffer, malloc (u32 (r.width * r.height * src.bpp)) = some buffer := by
  unfold cut
  cases pixels : src.pixel with
  | none => simp
  | some source =>
    by_cases large : r.TooLarge src
    · simp [large]
    · cases malloc (u32 (r.width * r.height * src.bpp)) with
      | none => simp [large]
      | some buffer => cases format : src.format <;> simp [large, cutLoop, format]

private theorem resizeStatus_zero_iff (dst : Image) : resizeStatus malloc src dst width height true = 0 ↔
    ¬ (src.pixel = none ∨ src.format = .invalid) ∧ ∃ buffer, malloc (u32 (width * height * src.bpp)) = some buffer := by
  unfold resizeStatus
  cases src.pixel with
  | none => simp
  | some source =>
    cases malloc (u32 (width * height * src.bpp)) with
    | none => simp
    | some buffer => by_cases invalid : src.format = .invalid <;> simp [invalid]

private theorem convert_zero {loop : Image → (Nat → UInt8) → (Nat → UInt8) → Option (Nat → UInt8)} {dst : Image}
    (done : (convert format loop malloc src dst true).1 = 0) :
    ∃ source buffer filled, src.pixel = some source ∧ malloc (u32 (src.width * src.height * format.bpp)) = some buffer ∧
      loop src source buffer = some filled := by
  simp only [convert, createDestImage, if_true] at done
  split at done
  next => cases done
  next source pixels =>
    split at done
    next => cases done
    next buffer after made =>
      have granted := (Prod.mk.inj made).1
      split at done
      next => cases done
      next filled looped => exact ⟨source, buffer, filled, pixels, granted, looped⟩

private theorem convert_zero_iff (dst : Image) : (conversion format malloc src dst true).1 = 0 ↔
    ¬ (src.pixel = none ∨ src.format = .invalid ∨ format = .invalid) ∧
      ∃ buffer, malloc (u32 (src.width * src.height * format.bpp)) = some buffer := by
  constructor
  · intro done
    have looped : ∃ (loop : Image → (Nat → UInt8) → (Nat → UInt8) → Option (Nat → UInt8)),
        (convert format loop malloc src dst true).1 = 0 ∧ format ≠ .invalid ∧
        ∀ source buffer, src.format = .invalid → loop src source buffer = none := by
      cases format with
      | grayscale => exact ⟨grayscaleLoop, done, by decide, fun _ _ invalid => by simp [grayscaleLoop, invalid]⟩
      | rgb565 => exact ⟨rgb565Loop, done, by decide, fun _ _ invalid => by simp [rgb565Loop, invalid]⟩
      | rgb888 => exact ⟨rgb888Loop, done, by decide, fun _ _ invalid => by simp [rgb888Loop, invalid]⟩
      | rgbp888 => exact ⟨rgbp888Loop, done, by decide, fun _ _ invalid => by simp [rgbp888Loop, invalid]⟩
      | invalid => cases done
    obtain ⟨loop, done, known, none⟩ := looped
    obtain ⟨source, buffer, filled, pixels, granted, made⟩ := convert_zero done
    refine ⟨?_, buffer, granted⟩
    rintro (bare | invalid | unknown)
    · rw [pixels] at bare
      cases bare
    · rw [none source buffer invalid] at made
      cases made
    · exact known unknown
  · rintro ⟨taken, buffer, granted⟩
    simp only [not_or] at taken
    obtain ⟨source, pixels⟩ := Option.ne_none_iff_exists'.mp taken.1
    exact conversion_succeeds taken.2.1 taken.2.2 pixels granted dst

private theorem fusedLoop_isSome_iff (source buffer : Nat → UInt8) :
    (src.fusedLoop r format source buffer).isSome ↔ src.format = format ∨ Accepted src.format format := by
  unfold fusedLoop
  by_cases same : src.format = format
  · rw [if_pos same]
    split <;> simp [same]
  · rw [if_neg same]
    cases kind : src.format <;> cases format <;> simp_all [Accepted]

private theorem cutToNewFormat_zero_iff (dst : Image) : (cutToNewFormat malloc src dst r format true).1 = 0 ↔
    ¬ (src.pixel = none ∨ r.TooLarge src ∨ ¬ (src.format = format ∨ Accepted src.format format)) ∧
      ∃ buffer, malloc (u32 (r.width * r.height * format.bpp)) = some buffer := by
  unfold cutToNewFormat
  cases src.pixel with
  | none => simp
  | some source =>
    by_cases large : r.TooLarge src
    · simp [large]
    · simp only [if_neg large, createDestImage, if_true]
      cases malloc (u32 (r.width * r.height * format.bpp)) with
      | none => simp
      | some buffer =>
        dsimp only
        rw [← fusedLoop_isSome_iff (r := r) source buffer]
        cases src.fusedLoop r format source buffer <;> simp [large]

private theorem resizeToNewFormatStatus_zero_iff (dst : Image) : resizeToNewFormatStatus malloc src dst width height format true = 0 ↔
    ¬ (src.pixel = none ∨ src.format = .invalid ∨ format = .invalid) ∧
      ∃ buffer, malloc (u32 (width * height * format.bpp)) = some buffer := by
  unfold resizeToNewFormatStatus
  cases pixels : src.pixel with
  | none => simp
  | some source =>
    simp only [createDestImage, if_true]
    cases malloc (u32 (width * height * format.bpp)) with
    | none => simp
    | some buffer =>
      dsimp only
      by_cases same : src.format = format
      · subst same
        by_cases invalid : src.format = .invalid <;> simp [resizeStatus, pixels, invalid]
      · by_cases invalid : src.format = .invalid ∨ format = .invalid <;> simp [same, invalid]

end Image

namespace Allocation

/-- A call succeeds exactly when it is not refused and gets what it asks for. -/
theorem status_zero_iff (malloc : Nat → Option (Nat → UInt8)) (call : Allocation) :
    call.status malloc = 0 ↔ ¬ call.Refused ∧ ∃ buffer, malloc call.requested = some buffer := by
  cases call with
  | created width height format =>
    simp only [status, Image.construct, if_true, Refused, not_false_eq_true, true_and, requested, needed, shape]
    cases malloc (u32 (width * height * format.bpp)) <;> simp
  | cut src dst r => exact Image.cut_zero_iff dst
  | resize src dst width height => exact Image.resizeStatus_zero_iff dst
  | convert format src dst => exact Image.convert_zero_iff dst
  | cutToNewFormat src dst r format => exact Image.cutToNewFormat_zero_iff dst
  | resizeToNewFormat src dst width height format => exact Image.resizeToNewFormatStatus_zero_iff dst

/-- The call got a buffer by its request, and the buffer has room for every byte of every pixel. -/
structure Enough (malloc : Nat → Option (Nat → UInt8)) (call : Allocation) : Prop where
  granted : ∃ buffer, malloc call.requested = some buffer
  room : call.needed ≤ call.requested
  inside : ∀ i k, i < call.shape.count → k < call.shape.bpp →
    call.shape.format.layout.address call.shape.count call.shape.bpp i k < call.requested

private theorem requested_enough_iff (call : Allocation) : call.needed ≤ call.requested ↔ call.needed < u32Range := by
  unfold requested u32
  have positive : 0 < u32Range := by decide
  constructor
  · intro room
    exact room.trans_lt (Nat.mod_lt _ positive)
  · intro fits
    exact (Nat.mod_eq_of_lt fits).ge

/-- The requests are large enough for every allocator exactly when the size of the image fits the 32 bits in which it is formed,
or the call never succeeds. -/
theorem enough_iff (call : Allocation) :
    (∀ malloc, call.status malloc = 0 → call.Enough malloc) ↔ call.Refused ∨ call.needed < u32Range := by
  constructor
  · intro enough
    by_cases refused : call.Refused
    · exact Or.inl refused
    · have succeeds := (status_zero_iff (fun _ => some fun _ => 0) call).mpr ⟨refused, _, rfl⟩
      exact Or.inr ((requested_enough_iff call).mp (enough _ succeeds).room)
  · intro fits malloc succeeds
    obtain ⟨taken, granted⟩ := (status_zero_iff malloc call).mp succeeds
    have room := (requested_enough_iff call).mpr (fits.resolve_left taken)
    refine ⟨granted, room, fun i k pixel byte => ?_⟩
    exact (Raster.Layout.address_lt _ pixel byte).trans_le room

/-- A grayscale image of 65536 by 65537 pixels. It asks for 65536 bytes. -/
theorem wrapped_request : ¬ ∀ call : Allocation, ∀ malloc, call.status malloc = 0 → call.Enough malloc := by
  intro always
  have enough := always (.created 65536 65537 .grayscale) (fun _ => some fun _ => 0) rfl
  exact absurd enough.room (by decide)

end Allocation

end ArduinoK210.Imaging
