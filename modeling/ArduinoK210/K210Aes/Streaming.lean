import ArduinoK210.K210Aes.Session
import Mathlib.Data.List.Induction

/-! A message that is streamed in chunks, from any session that its calls can reach. -/

namespace ArduinoK210.K210Aes

abbrev Chunk := Direction × Buffer

def feed (chunk : Chunk) (aes : Aes) : Aes := (aes.process chunk.1 chunk.2).2

def Chunk.Empty (chunk : Chunk) : Prop := chunk.2.val = []

instance (chunk : Chunk) : Decidable chunk.Empty := inferInstanceAs (Decidable (_ = _))

def bytes (chunks : List Chunk) : List UInt8 := chunks.flatMap fun chunk => chunk.2.val

def carried (mode : CipherMode) (chunks : List Chunk) : List DeviceCall :=
  (chunks.filter fun chunk => ¬ chunk.Empty).map fun chunk => .process chunk.2.val mode

/-- The direction in which the device works after its calls. -/
def worksIn (calls : List DeviceCall) : Option Direction :=
  calls.foldl (fun last call => match call with | .init _ _ _ _ direction _ => some direction | _ => last) none

/-- A message of the session: its length is set and its chunks are fed. -/
def Session.message (session : Session) (dataLen : Nat) (chunks : List Chunk) : Aes :=
  Run.run feed chunks (session.aes.setDataLen dataLen).2

/-- The device is initialised once, with what the session has accepted, and then gets
the message in order; no chunk is worked on in the other direction. -/
structure Streamed (session : Session) (dataLen : Nat) (direction : Direction) (chunks : List Chunk) : Prop where
  calls : ∃ pieces : List (List UInt8), pieces.flatten = bytes chunks ∧
    (session.message dataLen chunks).device = session.aes.device ++
      .init session.key session.iv session.aad session.aes.mode direction ((dataLen + 15) / 16 * 16) ::
        pieces.map (DeviceCall.process · session.aes.mode)
  own : ∀ front chunk back, chunks = front ++ chunk :: back →
    (session.message dataLen (front ++ [chunk])).device = (session.message dataLen front).device ∨
      worksIn (session.message dataLen (front ++ [chunk])).device = some chunk.1

variable {aes : Aes} {chunks : List Chunk}

def Bounded (aes : Aes) : Prop := aes.processDataLen ≤ aes.totalDataLen ∧ aes.totalDataLen < sizeRange

private theorem feed_bounded (chunk : Chunk) (aes : Aes) (bounded : Bounded aes) : Bounded (feed chunk aes) := by
  simp only [feed, Aes.process]
  split
  next => exact bounded
  next => exact ⟨Session.taken_le bounded.1 _, bounded.2⟩

private theorem process_empty (direction : Direction) {input : Buffer} (empty : input.val = [])
    (order : aes.processDataLen ≤ aes.totalDataLen) (range : aes.totalDataLen < sizeRange) :
    (aes.process direction input).2 = aes := by
  have none : aes.taken input.val.length = 0 := by
    rw [empty, Aes.taken, if_neg]
    · rfl
    · rw [List.length_nil, Nat.add_zero, Nat.mod_eq_of_lt (Nat.lt_of_le_of_lt order range)]
      omega
  simp only [Aes.process, if_pos none]

private theorem process_fits (direction : Direction) {input : Buffer} (some : input.val ≠ [])
    (fits : aes.processDataLen + input.val.length ≤ aes.totalDataLen) (range : aes.totalDataLen < sizeRange) :
    (aes.process direction input).2 = { aes with
      device := aes.device ++ (if aes.processDataLen = 0 then [aes.initCall direction] else []) ++
        [.process input.val aes.mode]
      processDataLen := aes.processDataLen + input.val.length } := by
  have small : (aes.processDataLen + input.val.length) % sizeRange = aes.processDataLen + input.val.length :=
    Nat.mod_eq_of_lt (Nat.lt_of_le_of_lt fits range)
  have all : aes.taken input.val.length = input.val.length := by
    rw [Aes.taken, small, if_neg (Nat.not_lt.mpr fits)]
  have length : input.val.length ≠ 0 := fun zero => some (List.eq_nil_of_length_eq_zero zero)
  simp only [Aes.process, all, if_neg length, List.take_length, small]

private theorem bytes_cons (chunk : Chunk) (rest : List Chunk) : bytes (chunk :: rest) = chunk.2.val ++ bytes rest := rfl

private theorem carried_empty (mode : CipherMode) {chunk : Chunk} (empty : chunk.Empty) (rest : List Chunk) :
    carried mode (chunk :: rest) = carried mode rest := by
  simp [carried, empty]

private theorem carried_cons (mode : CipherMode) {chunk : Chunk} (some : ¬ chunk.Empty) (rest : List Chunk) :
    carried mode (chunk :: rest) = .process chunk.2.val mode :: carried mode rest := by
  simp [carried, some]

/-- In the middle of a message the chunks only go to the device. -/
theorem run_middle (chunks : List Chunk) {aes : Aes} (begun : aes.processDataLen ≠ 0)
    (fits : aes.processDataLen + (bytes chunks).length ≤ aes.totalDataLen) (range : aes.totalDataLen < sizeRange) :
    (Run.run feed chunks aes).device = aes.device ++ carried aes.mode chunks := by
  induction chunks generalizing aes with
  | nil => exact (List.append_nil _).symm
  | cons chunk rest ih =>
    rw [bytes_cons, List.length_append] at fits
    by_cases empty : chunk.Empty
    · have same : feed chunk aes = aes := process_empty _ empty (by omega) range
      rw [Run.run, same, carried_empty _ empty]
      exact ih begun (by omega) range
    · have fed : feed chunk aes = _ := process_fits chunk.1 empty (by omega) range
      rw [if_neg begun, List.append_nil] at fed
      rw [Run.run, fed, carried_cons _ empty]
      refine (ih ?_ ?_ ?_).trans ?_
      · simp only
        omega
      · simp only
        omega
      · exact range
      · exact List.append_assoc _ _ _

/-- The first chunk with a byte decides the direction of the whole message. -/
theorem run_first (chunks : List Chunk) {aes : Aes} (fresh : aes.processDataLen = 0)
    (fits : (bytes chunks).length ≤ aes.totalDataLen) (range : aes.totalDataLen < sizeRange) {first : Chunk}
    (leads : chunks.find? (fun chunk => ¬ chunk.Empty) = some first) :
    (Run.run feed chunks aes).device = aes.device ++ aes.initCall first.1 :: carried aes.mode chunks := by
  induction chunks with
  | nil => cases leads
  | cons chunk rest ih =>
    rw [bytes_cons, List.length_append] at fits
    by_cases empty : chunk.Empty
    · have same : feed chunk aes = aes := process_empty _ empty (by omega) range
      rw [List.find?_cons_of_neg (by simpa using empty)] at leads
      rw [Run.run, same, carried_empty _ empty]
      exact ih (by omega) leads
    · have fed : feed chunk aes = _ := process_fits chunk.1 empty (by omega) range
      have length : chunk.2.val.length ≠ 0 := fun zero => empty (List.eq_nil_of_length_eq_zero zero)
      rw [List.find?_cons_of_pos (by simpa using empty)] at leads
      cases leads
      rw [if_pos fresh, fresh, Nat.zero_add] at fed
      rw [Run.run, fed, carried_cons _ empty]
      refine (run_middle rest ?_ ?_ ?_).trans ?_
      · exact length
      · simp only
        omega
      · exact range
      · simp only [List.append_assoc, List.cons_append, List.nil_append]

/-- No chunk gets through when the set length is zero. -/
theorem run_nothing (chunks : List Chunk) (fresh : aes.processDataLen = 0) (none : aes.totalDataLen = 0) :
    Run.run feed chunks aes = aes := by
  induction chunks with
  | nil => rfl
  | cons chunk rest ih =>
    have nothing : aes.taken chunk.2.val.length = 0 := by
      unfold Aes.taken
      split
      next => simp only [fresh, none, Nat.zero_add, Nat.sub_zero, Nat.mod_self]
      next fits =>
        rw [fresh, none, Nat.zero_add, Nat.mod_eq_of_lt chunk.2.property] at fits
        omega
    have same : feed chunk aes = aes := by simp only [feed, Aes.process, if_pos nothing]
    rw [Run.run, same, ih]

private theorem worksIn_init (calls : List DeviceCall) (key iv aad : List UInt8) (mode : CipherMode) (direction : Direction)
    (total : Nat) (rest : List Chunk) :
    worksIn (calls ++ .init key iv aad mode direction total :: carried mode rest) = some direction := by
  have unchanged : ∀ (pieces : List Chunk) (last : Option Direction),
      (carried mode pieces).foldl (fun last call => match call with
        | .init _ _ _ _ direction _ => some direction | _ => last) last = last := by
    intro pieces last
    induction pieces with
    | nil => rfl
    | cons chunk rest ih =>
      by_cases empty : chunk.Empty
      · rw [carried_empty _ empty]
        exact ih
      · rw [carried_cons _ empty]
        exact ih
  unfold worksIn
  rw [List.foldl_append, List.foldl_cons]
  exact unchanged rest _

private theorem carried_pieces (mode : CipherMode) (chunks : List Chunk) :
    ∃ pieces : List (List UInt8), pieces.flatten = bytes chunks ∧
      carried mode chunks = pieces.map (DeviceCall.process · mode) := by
  induction chunks with
  | nil => exact ⟨[], rfl, rfl⟩
  | cons chunk rest ih =>
    obtain ⟨pieces, flat, same⟩ := ih
    by_cases empty : chunk.Empty
    · refine ⟨pieces, ?_, ?_⟩
      · rw [flat, bytes_cons, empty, List.nil_append]
      · rw [carried_empty _ empty, same]
    · refine ⟨chunk.2.val :: pieces, ?_, ?_⟩
      · rw [List.flatten_cons, flat, bytes_cons]
      · rw [carried_cons _ empty, same, List.map_cons]

variable {session : Session} {dataLen : Nat}

theorem setDataLen_eq (accepted : (session.aes.setDataLen dataLen).1 = 0) :
    (session.aes.setDataLen dataLen).2 =
      { session.aes with processDataLen := 0, totalDataLen := (dataLen + 15) % sizeRange / 16 * 16 } := by
  unfold Aes.setDataLen at accepted ⊢
  split at accepted
  next => cases accepted
  next free => rw [if_neg free]

/-- The device gets the fields that the session has accepted, and never an AAD. -/
theorem Session.Kept.message (kept : session.Kept) (accepted : (session.aes.setDataLen dataLen).1 = 0)
    (small : dataLen + 15 < sizeRange) {chunks : List Chunk} (fits : (bytes chunks).length ≤ (dataLen + 15) / 16 * 16)
    {first : Chunk} (leads : chunks.find? (fun chunk => ¬ chunk.Empty) = some first) :
    (session.message dataLen chunks).device = session.aes.device ++
      .init session.key session.iv [] session.aes.mode first.1 ((dataLen + 15) / 16 * 16) ::
        carried session.aes.mode chunks := by
  have whole : (dataLen + 15) % sizeRange / 16 * 16 = (dataLen + 15) / 16 * 16 := by rw [Nat.mod_eq_of_lt small]
  rw [Session.message, setDataLen_eq accepted, whole]
  refine (run_first chunks rfl fits ?_ leads).trans ?_
  · exact Nat.lt_of_le_of_lt (Nat.div_mul_le_self _ 16) small
  · simp only [Aes.initCall, kept.key, kept.iv, kept.aadLen, List.take_zero]

/-- A chunk without a byte never reaches the device. -/
theorem message_empty (accepted : (session.aes.setDataLen dataLen).1 = 0) (front : List Chunk) {chunk : Chunk}
    (empty : chunk.Empty) : session.message dataLen (front ++ [chunk]) = session.message dataLen front := by
  have bounded : Bounded (session.message dataLen front) := by
    apply Run.invariant feed_bounded
    rw [setDataLen_eq accepted]
    have bound : (dataLen + 15) % sizeRange < sizeRange := Nat.mod_lt _ Session.sizeRange_pos
    exact ⟨Nat.zero_le _, Nat.lt_of_le_of_lt (Nat.div_mul_le_self _ 16) bound⟩
  rw [Session.message, Run.run_append]
  exact process_empty chunk.1 empty bounded.1 bounded.2

private theorem message_untouched (accepted : (session.aes.setDataLen dataLen).1 = 0) {front : List Chunk}
    (none : front.find? (fun chunk => ¬ chunk.Empty) = none) :
    (session.message dataLen front).device = session.aes.device := by
  induction front using List.reverseRecOn with
  | nil => rw [Session.message, setDataLen_eq accepted, Run.run]
  | append_singleton front chunk ih =>
    rw [List.find?_eq_none] at none
    have empty : chunk.Empty := by simpa using none chunk (by simp)
    rw [message_empty accepted front empty]
    apply ih
    rw [List.find?_eq_none]
    exact fun earlier member => none earlier (List.mem_append_left _ member)

private theorem message_nothing (accepted : (session.aes.setDataLen dataLen).1 = 0)
    (none : (dataLen + 15) % sizeRange / 16 * 16 = 0) (chunks : List Chunk) :
    (session.message dataLen chunks).device = session.aes.device := by
  rw [Session.message, setDataLen_eq accepted, run_nothing chunks rfl none]

private theorem leads_of_bytes {chunks : List Chunk} (nonempty : bytes chunks ≠ []) :
    ∃ first, chunks.find? (fun chunk => ¬ chunk.Empty) = some first := by
  apply Option.isSome_iff_exists.mp
  rw [List.find?_isSome]
  by_contra none
  apply nonempty
  rw [bytes, List.flatMap_eq_nil_iff]
  intro chunk member
  by_contra carries
  exact none ⟨chunk, member, decide_eq_true carries⟩

/-- The chunks up to one with a byte begin as the whole message does. -/
theorem leads_front {front back : List Chunk} {chunk first : Chunk} (carries : ¬ chunk.Empty)
    (leads : (front ++ chunk :: back).find? (fun chunk => ¬ chunk.Empty) = some first) :
    (front ++ [chunk]).find? (fun chunk => ¬ chunk.Empty) = some first := by
  rw [List.find?_append, List.find?_cons_of_pos (by simpa using carries)] at leads ⊢
  exact leads

private theorem bytes_front (front : List Chunk) (chunk : Chunk) (back : List Chunk) :
    (bytes (front ++ [chunk])).length ≤ (bytes (front ++ chunk :: back)).length := by
  simp only [bytes, List.flatMap_append, List.flatMap_cons, List.flatMap_nil, List.length_append, List.length_nil]
  omega

/-- No AAD, some bytes, a padded length in range, and one direction throughout. -/
def Faithful (session : Session) (dataLen : Nat) (direction : Direction) (chunks : List Chunk) : Prop :=
  session.aad = [] ∧ dataLen ≠ 0 ∧ dataLen + 15 < sizeRange ∧ ∀ chunk ∈ chunks, ¬ chunk.Empty → chunk.1 = direction

private theorem Session.Kept.streamed (kept : session.Kept) (accepted : (session.aes.setDataLen dataLen).1 = 0)
    {direction : Direction} {chunks : List Chunk} (whole : (bytes chunks).length = (dataLen + 15) / 16 * 16)
    (faithful : Faithful session dataLen direction chunks) : Streamed session dataLen direction chunks := by
  obtain ⟨noAad, nonempty, small, same⟩ := faithful
  have some : bytes chunks ≠ [] := by
    intro empty
    rw [empty, List.length_nil] at whole
    omega
  obtain ⟨first, leads⟩ := leads_of_bytes some
  have asked : first.1 = direction :=
    same first (List.mem_of_find?_eq_some leads) (by simpa using List.find?_some leads)
  refine ⟨?_, ?_⟩
  · obtain ⟨pieces, flat, calls⟩ := carried_pieces session.aes.mode chunks
    refine ⟨pieces, flat, ?_⟩
    rw [kept.message accepted small (Nat.le_of_eq whole) leads, noAad, asked, calls]
  · rintro front chunk back rfl
    by_cases empty : chunk.Empty
    · exact .inl (congrArg Aes.device (message_empty accepted front empty))
    · refine .inr ?_
      have fits := Nat.le_trans (bytes_front front chunk back) (Nat.le_of_eq whole)
      rw [kept.message accepted small fits (leads_front empty leads), worksIn_init, asked]
      rw [same chunk (by simp) empty]

/-- A chunk with a byte always makes a device call. -/
theorem Session.Kept.advances (kept : session.Kept) (accepted : (session.aes.setDataLen dataLen).1 = 0)
    (small : dataLen + 15 < sizeRange) {front : List Chunk} {chunk first : Chunk} (carries : ¬ chunk.Empty)
    (fits : (bytes (front ++ [chunk])).length ≤ (dataLen + 15) / 16 * 16)
    (leads : (front ++ [chunk]).find? (fun chunk => ¬ chunk.Empty) = some first) :
    (session.message dataLen (front ++ [chunk])).device ≠ (session.message dataLen front).device := by
  intro same
  rw [kept.message accepted small fits leads] at same
  cases before : front.find? (fun chunk => ¬ chunk.Empty) with
  | none =>
    rw [message_untouched accepted before, List.append_right_eq_self] at same
    cases same
  | some earlier =>
    have shorter : (bytes front).length ≤ (dataLen + 15) / 16 * 16 := by
      refine Nat.le_trans ?_ fits
      simp [bytes]
    rw [kept.message accepted small shorter before, List.append_cancel_left_eq, List.cons.injEq] at same
    have longer := congrArg List.length same.2
    simp [carried, carries] at longer

private theorem Session.Kept.faithful (kept : session.Kept) (accepted : (session.aes.setDataLen dataLen).1 = 0)
    (size : dataLen < sizeRange) {direction : Direction} {chunks : List Chunk}
    (whole : (bytes chunks).length = (dataLen + 15) / 16 * 16) (streamed : Streamed session dataLen direction chunks) :
    Faithful session dataLen direction chunks := by
  obtain ⟨pieces, _, calls⟩ := streamed.calls
  have nonzero : (dataLen + 15) % sizeRange / 16 * 16 ≠ 0 := by
    intro none
    rw [message_nothing accepted none, List.self_eq_append_right] at calls
    cases calls
  have small : dataLen + 15 < sizeRange := by
    by_contra large
    have wrapped : (dataLen + 15) % sizeRange = dataLen + 15 - sizeRange := by
      rw [Nat.mod_eq_sub_mod (Nat.le_of_not_lt large), Nat.mod_eq_of_lt]
      have range : 15 < sizeRange := by simp [sizeRange]
      omega
    omega
  rw [Nat.mod_eq_of_lt small] at nonzero
  have nonempty : bytes chunks ≠ [] := by
    intro empty
    rw [empty, List.length_nil] at whole
    exact nonzero whole.symm
  obtain ⟨first, leads⟩ := leads_of_bytes nonempty
  rw [kept.message accepted small (Nat.le_of_eq whole) leads, List.append_cancel_left_eq, List.cons.injEq,
    DeviceCall.init.injEq] at calls
  obtain ⟨⟨_, _, aad, _, asked, _⟩, _⟩ := calls
  refine ⟨aad.symm, ?_, small, ?_⟩
  · intro zero
    subst zero
    exact nonzero rfl
  · intro chunk member carries
    obtain ⟨front, back, split⟩ := List.append_of_mem member
    have fits := Nat.le_trans (split ▸ bytes_front front chunk back) (Nat.le_of_eq whole)
    have device := kept.message accepted small fits (leads_front carries (split ▸ leads))
    rcases streamed.own front chunk back split with same | own
    · exact absurd same (kept.advances accepted small carries fits (leads_front carries (split ▸ leads)))
    · rw [device, worksIn_init] at own
      exact (Option.some.inj own).symm.trans asked

/-- From every session that accepted calls reach, a message is streamed as asked in
exactly these cases. -/
theorem message_streamed_iff (calls : List Call) (accepted : Run.Guarded Session.step Session.Accepted calls .start)
    (dataLen : Nat) (size : dataLen < sizeRange) (direction : Direction) (chunks : List Chunk)
    (free : ((Run.run Session.step calls .start).aes.setDataLen dataLen).1 = 0)
    (whole : (bytes chunks).length = (dataLen + 15) / 16 * 16) :
    Streamed (Run.run Session.step calls .start) dataLen direction chunks ↔
      (Run.run Session.step calls .start).aad = [] ∧ dataLen ≠ 0 ∧ dataLen + 15 < sizeRange ∧
        ∀ chunk ∈ chunks, chunk.2.val ≠ [] → chunk.1 = direction := by
  have kept : (Run.run Session.step calls .start).Kept := by
    apply accepted.invariant
    · exact fun call _ before allowed => Session.Kept.step before call allowed
    · exact Session.start_kept
  exact ⟨kept.faithful free size whole, kept.streamed free whole⟩

def gcmSetup : List Call :=
  [.begin .gcm .aes128 .iv96, .setKey ⟨List.replicate 16 0x11, by decide⟩, .setIv ⟨List.replicate 12 0x22, by decide⟩]

def halves (direction : Direction) : List Chunk :=
  [(direction, ⟨List.replicate 8 0x33, by simp [sizeRange]⟩), (direction, ⟨List.replicate 8 0x44, by simp [sizeRange]⟩)]

private theorem gcmSetup_accepted : Run.Guarded Session.step Session.Accepted gcmSetup .start := ⟨rfl, rfl, rfl, trivial⟩

theorem message_streamed_two_halves :
    Streamed (Run.run Session.step gcmSetup .start) 16 .decryption (halves .decryption) := by
  refine (message_streamed_iff gcmSetup gcmSetup_accepted 16 (by simp [sizeRange]) .decryption (halves .decryption) ?_ ?_).mpr ?_
  · rfl
  · rfl
  · refine ⟨rfl, by decide, by simp [sizeRange], ?_⟩
    intro chunk member _
    simp only [halves, List.mem_cons, List.not_mem_nil, or_false] at member
    rcases member with rfl | rfl <;> rfl

def gcmAuthenticated : List Call :=
  [.begin .gcm .aes128 .iv96, .setKey ⟨List.replicate 16 0x11, by decide⟩, .setIv ⟨List.replicate 12 0x22, by decide⟩,
    .gcmSetAad ⟨[0xa5], by decide⟩]

theorem gcmSetAad_loses_length : ¬ ∀ calls, Run.Guarded Session.step Session.Accepted calls .start →
    ∀ dataLen, dataLen < sizeRange → ∀ direction chunks,
      ((Run.run Session.step calls .start).aes.setDataLen dataLen).1 = 0 →
        (bytes chunks).length = (dataLen + 15) / 16 * 16 → (∀ chunk ∈ chunks, chunk.1 = direction) →
          Streamed (Run.run Session.step calls .start) dataLen direction chunks := by
  intro meets
  have streamed : Streamed (Run.run Session.step gcmAuthenticated .start) 16 .encryption (halves .encryption) := by
    apply meets
    · exact ⟨rfl, rfl, rfl, trivial, trivial⟩
    · simp [sizeRange]
    · rfl
    · rfl
    · simp [halves]
  obtain ⟨pieces, _, calls⟩ := streamed.calls
  have first := congrArg List.head? calls
  cases first

end ArduinoK210.K210Aes
