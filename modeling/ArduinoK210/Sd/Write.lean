import ArduinoK210.Sd.Progress
import ArduinoK210.Sd.Protocol

/-! The multiple block write as a protocol with the card: when it succeeds, what it
sends, and how it gives up. -/

namespace ArduinoK210.Sd

def blockFrame (buffer : Nat → UInt8) (index : Nat) : List UInt8 :=
  0xFC :: Nor.slice buffer (index * blockSize) blockSize ++ [dummyByte, dummyByte]

def frames (buffer : Nat → UInt8) (index count : Nat) : List UInt8 :=
  (List.range' index count).flatMap (blockFrame buffer)

/-- The block sent from `pos` on gets a good data response, and the card is ready in time. -/
def BlockAccepted (line : Line) (patience : Nat → Prop) (pos ticks next last : Nat) : Prop :=
  line.card (pos + 515) &&& 0x1F = 5 ∧
    Waited line patience (line.tick ticks) (pos + 516) (ticks + 1) .ok next last

/-- The block sent from `pos` on is rejected, or the card stays busy past the timeout. -/
def BlockFails (line : Line) (patience : Nat → Prop) (pos ticks : Nat) : Prop :=
  line.card (pos + 515) &&& 0x1F ≠ 5 ∨
    ∃ next last, Waited line patience (line.tick ticks) (pos + 516) (ticks + 1) .timeout next last

def Accepted (line : Line) (patience : Nat → Prop) : Nat → Nat → Nat → Nat → Nat → Prop
  | 0, pos, ticks, next, last => next = pos ∧ last = ticks
  | count + 1, pos, ticks, next, last => ∃ middle reading,
    BlockAccepted line patience pos ticks middle reading ∧ Accepted line patience count middle reading next last

section Acceptance

variable {line : Line} {patience other : Nat → Prop} {pos ticks : Nat}

private theorem BlockAccepted.unique {next last next' last' : Nat} (one : BlockAccepted line patience pos ticks next last)
    (two : BlockAccepted line other pos ticks next' last') : next = next' ∧ last = last' :=
  (one.2.unique two.2).2

private theorem BlockAccepted.not_fails {next last : Nat} (accepted : BlockAccepted line patience pos ticks next last)
    (fails : BlockFails line other pos ticks) : False := by
  rcases fails with rejected | ⟨_, _, waited⟩
  · exact rejected accepted.1
  · exact absurd (accepted.2.unique waited).1 (by simp)

private theorem Accepted.mono {count next last : Nat} (accepted : Accepted line patience count pos ticks next last)
    (wider : ∀ k, patience k → other k) : Accepted line other count pos ticks next last := by
  induction count generalizing pos ticks with
  | zero => exact accepted
  | succ count ih =>
    obtain ⟨middle, reading, block, rest⟩ := accepted
    exact ⟨middle, reading, ⟨block.1, block.2.mono wider⟩, ih rest⟩

private theorem Accepted.unique {count next last next' last' : Nat} (one : Accepted line patience count pos ticks next last)
    (two : Accepted line other count pos ticks next' last') : next = next' ∧ last = last' := by
  induction count generalizing pos ticks with
  | zero => exact ⟨one.1.trans two.1.symm, one.2.trans two.2.symm⟩
  | succ count ih =>
    obtain ⟨middle, reading, block, rest⟩ := one
    obtain ⟨middle', reading', block', rest'⟩ := two
    obtain ⟨rfl, rfl⟩ := block.unique block'
    exact ih rest rest'

theorem Accepted.block {count k next last middle reading : Nat}
    (accepted : Accepted line patience count pos ticks next last) (inside : k < count)
    (front : Accepted line other k pos ticks middle reading) :
    ∃ later again, BlockAccepted line patience middle reading later again := by
  induction k generalizing count pos ticks with
  | zero =>
    obtain ⟨rfl, rfl⟩ := front
    cases count with
    | zero => omega
    | succ count =>
      obtain ⟨middle, reading, block, _⟩ := accepted
      exact ⟨middle, reading, block⟩
  | succ k ih =>
    cases count with
    | zero => omega
    | succ count =>
      obtain ⟨one, reading, block, rest⟩ := accepted
      obtain ⟨two, reading', block', rest'⟩ := front
      obtain ⟨rfl, rfl⟩ := block.unique block'
      exact ih rest (Nat.lt_of_succ_lt_succ inside) rest'

theorem Accepted.le_failure {third : Nat → Prop} {count k next last middle reading : Nat}
    (accepted : Accepted line patience count pos ticks next last) (front : Accepted line other k pos ticks middle reading)
    (fails : BlockFails line third middle reading) : count ≤ k := by
  by_contra more
  obtain ⟨later, again, block⟩ := accepted.block (Nat.lt_of_not_le more) front
  exact block.not_fails fails

theorem Waited.bounded {began : UInt32} {start : Nat} {result : Result} {next last : Nat}
    (waited : Waited line patience began start ticks result next last) :
    ∃ fuel, Waited line (fun k => k < fuel) began start ticks result next last := by
  rcases waited with ⟨k, _, rest⟩ | ⟨k, _, rest⟩
  · exact ⟨k + 1, .inl ⟨k, Nat.lt_succ_self k, rest⟩⟩
  · exact ⟨k + 1, .inr ⟨k, Nat.lt_succ_self k, rest⟩⟩

private theorem Accepted.bounded {count next last : Nat} (accepted : Accepted line patience count pos ticks next last) :
    ∃ fuel, Accepted line (fun k => k < fuel) count pos ticks next last := by
  induction count generalizing pos ticks with
  | zero => exact ⟨0, accepted⟩
  | succ count ih =>
    obtain ⟨middle, reading, block, rest⟩ := accepted
    obtain ⟨first, waited⟩ := block.2.bounded
    obtain ⟨second, others⟩ := ih rest
    refine ⟨max first second, middle, reading, ⟨block.1, waited.mono fun k below => ?_⟩, others.mono fun k below => ?_⟩
    · exact Nat.lt_of_lt_of_le below (Nat.le_max_left _ _)
    · exact Nat.lt_of_lt_of_le below (Nat.le_max_right _ _)

end Acceptance

private theorem frames_succ (buffer : Nat → UInt8) (index count : Nat) :
    frames buffer index (count + 1) = blockFrame buffer index ++ frames buffer (index + 1) count := by
  simp only [frames, List.range'_succ, List.flatMap_cons]

private theorem frames_one (buffer : Nat → UInt8) (index : Nat) : frames buffer index 1 = blockFrame buffer index ++ [] :=
  frames_succ buffer index 0

theorem blockOffset_eq {index : Nat} (count : SectorCount) (inside : index < count.value) :
    blockOffset index = index * blockSize := by
  have fits := count.fits
  simp only [blockOffset, blockSize] at fits ⊢
  omega

theorem sendBlock_does (line : Line) (token : UInt8) {bytes : List UInt8} (size : bytes.length = blockSize) {bus : Bus}
    (selected : bus.selected = true) :
    ∃ after, Does (sendBlock line token bytes) bus (line.card (bus.pos + 515)) after
        (token :: bytes ++ [dummyByte, dummyByte]) [] ∧
      after.pos = bus.pos + 516 ∧ after.ticks = bus.ticks ∧ after.selected = true := by
  have place : bus.pos + 1 + bytes.length + 1 + 1 = bus.pos + 515 := by
    rw [size, blockSize]
  let started := bus.clock .token [token] [line.card bus.pos] 1
  let sent := started.clock .data bytes [] bytes.length
  let checked := sent.clock .crc [dummyByte] [line.card sent.pos] 1
  let summed := checked.clock .crc [dummyByte] [line.card checked.pos] 1
  have block : Does (write .data bytes) started () sent bytes [] := ⟨rfl, .payload (.inr (.inl rfl)) _ _ _ selected⟩
  have first : sent.selected = true := selected
  have second : checked.selected = true := selected
  have third : summed.selected = true := selected
  have does : Does (sendBlock line token bytes) bus (line.card summed.pos)
      (summed.clock .response [dummyByte] [line.card summed.pos] 1)
      ([token] ++ (bytes ++ ([dummyByte] ++ ([dummyByte] ++ [])))) [] :=
    (wrRdByte_payload line (.inl rfl) token selected).bind (block.bind
      ((wrRdByte_payload line (.inr (.inr rfl)) dummyByte first).bind
        ((wrRdByte_payload line (.inr (.inr rfl)) dummyByte second).bind (wrRdByte_response line third))))
  have reached : summed.pos = bus.pos + 515 := place
  rw [reached] at does
  exact ⟨_, does, congrArg (· + 1) place, rfl, selected⟩

/-- How the loop over the blocks ends. With `none` all blocks were accepted; with a
result one block failed, nothing after it was sent, and one CMD12 was. Otherwise it
waits for a card that is busy while the tick counter stands still. -/
inductive BlocksEnd (line : Line) (fuel : Nat) (buffer : Nat → UInt8) (index left : Nat) (bus : Bus) : Prop where
  | accepted (after : Bus) (does : Does (writeBlocks line fuel buffer index left) bus none after (frames buffer index left) [])
      (selected : after.selected = true)
      (blocks : Accepted line (fun k => k < fuel) left bus.pos bus.ticks after.pos after.ticks)
  | aborted (after : Bus) (result : Result) (k pos ticks : Nat) (inside : k < left) (failed : result ≠ .ok)
      (does : Does (writeBlocks line fuel buffer index left) bus (some result) after (frames buffer index (k + 1)) [cmd12])
      (finished : Finished after) (blocks : Accepted line (fun k => k < fuel) k bus.pos bus.ticks pos ticks)
      (fails : BlockFails line (fun k => k < fuel) pos ticks)
  | waiting (after : Bus) (issued : List UInt8) (k pos ticks : Nat) (inside : k < left)
      (hangs : Hangs (writeBlocks line fuel buffer index left) bus after (frames buffer index (k + 1)) issued)
      (stops : issued = [] ∨ issued = [cmd12]) (blocks : Accepted line (fun k => k < fuel) k bus.pos bus.ticks pos ticks)
      (busy : BlockFails line (fun k => k < fuel) pos ticks ∨
        Pending line (line.tick ticks) (pos + 516) (ticks + 1) fuel)

theorem BlocksEnd.cons {line : Line} {fuel : Nat} {buffer : Nat → UInt8} {index left : Nat} {bus middle : Bus}
    (block : BlockAccepted line (fun k => k < fuel) bus.pos bus.ticks middle.pos middle.ticks)
    (same : (writeBlocks line fuel buffer index (left + 1)).run bus = (writeBlocks line fuel buffer (index + 1) left).run middle)
    (start : Logs bus middle (blockFrame buffer index) []) (rest : BlocksEnd line fuel buffer (index + 1) left middle) :
    BlocksEnd line fuel buffer index (left + 1) bus := by
  cases rest with
  | accepted after does selected blocks =>
    refine .accepted after ?_ selected ⟨middle.pos, middle.ticks, block, blocks⟩
    rw [frames_succ]
    exact .follow same start does
  | aborted after result k pos ticks inside failed does finished blocks fails =>
    refine .aborted after result (k + 1) pos ticks (Nat.succ_lt_succ inside) failed ?_ finished
      ⟨middle.pos, middle.ticks, block, blocks⟩ fails
    rw [frames_succ]
    exact .follow same start does
  | waiting after issued k pos ticks inside hangs stops blocks busy =>
    refine .waiting after issued (k + 1) pos ticks (Nat.succ_lt_succ inside) ?_ stops
      ⟨middle.pos, middle.ticks, block, blocks⟩ busy
    rw [frames_succ]
    exact .follow same start hangs

private theorem Waited.ok_or_timeout {line : Line} {patience : Nat → Prop} {began : UInt32} {start ticks next last : Nat}
    {result : Result} (waited : Waited line patience began start ticks result next last) :
    result = .ok ∨ result = .timeout := by
  rcases waited with ⟨_, _, _, same, _⟩ | ⟨_, _, _, same, _⟩
  · exact .inl same
  · exact .inr same

theorem BlocksEnd.fail {line : Line} {fuel : Nat} {buffer : Nat → UInt8} {index left : Nat} {bus middle : Bus}
    {result : Result} (failed : result ≠ .ok) (fails : BlockFails line (fun k => k < fuel) bus.pos bus.ticks)
    (same : (writeBlocks line fuel buffer index (left + 1)).run bus =
      (stopTransmission line fuel >>= fun _ => pure (some result)).run middle)
    (start : Logs bus middle (blockFrame buffer index) []) : BlocksEnd line fuel buffer index (left + 1) bus := by
  obtain ⟨after, ⟨stopped, does, finished, _⟩ | ⟨hangs, _⟩⟩ := stopTransmission_does line fuel middle
  · refine .aborted after result 0 bus.pos bus.ticks (Nat.succ_pos _) failed ?_ finished ⟨rfl, rfl⟩ fails
    rw [frames_one]
    exact .follow same start (does.bind (.pure _ _))
  · refine .waiting after [cmd12] 0 bus.pos bus.ticks (Nat.succ_pos _) ?_ (.inr rfl) ⟨rfl, rfl⟩ (.inl fails)
    rw [frames_one]
    exact .follow same start hangs.bind

private theorem writeBlocks_ends (line : Line) (fuel : Nat) (buffer : Nat → UInt8) (index left : Nat)
    (offsets : ∀ i < index + left, blockOffset i = i * blockSize) {bus : Bus} (selected : bus.selected = true) :
    BlocksEnd line fuel buffer index left bus := by
  induction left generalizing index bus with
  | zero => exact .accepted bus (.pure _ _) selected ⟨rfl, rfl⟩
  | succ left ih =>
    have offset := offsets index (by omega)
    obtain ⟨sentBus, sends, sentPos, sentTicks, still⟩ :=
      sendBlock_does line 0xFC (Nor.slice_length buffer (blockOffset index) blockSize) selected
    have frame : 0xFC :: Nor.slice buffer (blockOffset index) blockSize ++ [dummyByte, dummyByte] =
        blockFrame buffer index := by
      rw [offset, blockFrame]
    rw [frame] at sends
    obtain ⟨waitedBus, kept, outcome⟩ := waitReady_does line fuel still
    rw [sentPos, sentTicks] at outcome
    by_cases good : line.card (bus.pos + 515) &&& 0x1F = 5
    · rcases outcome with ⟨result, waits, waited⟩ | ⟨hangs, pending⟩
      · have start := sends.logs.trans waits.logs
        rw [List.append_nil] at start
        by_cases ready : result = .ok
        · subst ready
          refine .cons ⟨good, waited⟩ ((Comp.run_bind_some sends.run).trans ?_) start
            (ih (index + 1) (fun i below => offsets i (by omega)) kept)
          rw [if_pos good, Comp.run_bind_some waits.run, if_pos rfl]
        · have late := waited.ok_or_timeout.resolve_left ready
          subst late
          refine .fail ready (.inr ⟨_, _, waited⟩) ((Comp.run_bind_some sends.run).trans ?_) start
          rw [if_pos good, Comp.run_bind_some waits.run, if_neg ready]
      · refine .waiting waitedBus [] 0 bus.pos bus.ticks (Nat.succ_pos _) ?_ (.inl rfl) ⟨rfl, rfl⟩ (.inr pending)
        rw [frames_one]
        apply sends.bind_hangs
        rw [if_pos good]
        exact hangs.bind
    · rcases outcome with ⟨result, waits, waited⟩ | ⟨hangs, pending⟩
      · have error : Result.error ≠ .ok := by simp
        have start := sends.logs.trans waits.logs
        rw [List.append_nil] at start
        refine .fail error (.inl good) ((Comp.run_bind_some sends.run).trans ?_) start
        rw [if_neg good, Comp.run_bind_some waits.run]
      · refine .waiting waitedBus [] 0 bus.pos bus.ticks (Nat.succ_pos _) ?_ (.inl rfl) ⟨rfl, rfl⟩ (.inl (.inl good))
        rw [frames_one]
        apply sends.bind_hangs
        rw [if_neg good]
        exact hangs.bind

/-- The two commands before CMD25; their answers are not looked at. -/
def announcement (type : CardType) : List UInt8 := if type = .mmc then [] else [cmd55, acmd23]

def Announced (line : Line) (type : CardType) (start next : Nat) : Prop :=
  if type = .mmc then next = start
  else ∃ first middle second, Responds line start first middle ∧ Responds line middle second next

private theorem Announced.unique {line : Line} {type : CardType} {start first second : Nat} (one : Announced line type start first)
    (other : Announced line type start second) : first = second := by
  unfold Announced at one other
  split at one
  next mmc =>
    rw [if_pos mmc] at other
    exact one.trans other.symm
  next sd =>
    rw [if_neg sd] at other
    obtain ⟨_, middle, _, left, right⟩ := one
    obtain ⟨_, middle', _, left', right'⟩ := other
    obtain ⟨_, rfl⟩ := left.unique left'
    exact (right.unique right').2

private theorem announceBlocks_does (line : Line) (type : CardType) (count : SectorCount) (bus : Bus) :
    ∃ after, Does (announceBlocks line type count) bus () after [] (announcement type) ∧ after.ticks = bus.ticks ∧
      Announced line type bus.pos after.pos := by
  unfold announceBlocks announcement Announced
  by_cases mmc : type = .mmc
  · rw [if_pos mmc, if_pos mmc]
    refine ⟨bus, .pure _ _, rfl, ?_⟩
    rw [if_pos mmc]
  · rw [if_neg mmc, if_neg mmc]
    obtain ⟨first, middle, app, appTicks, _, appResponds⟩ := sendCommand_does line cmd55 0 1 bus
    obtain ⟨second, after, set, setTicks, _, setResponds⟩ :=
      sendCommand_does line acmd23 (UInt32.ofNat count.value) 1 middle
    refine ⟨after, app.bind (set.bind (.pure _ _)), setTicks.trans appTicks, ?_⟩
    rw [if_neg mmc]
    exact ⟨first, middle.pos, second, appResponds, setResponds⟩

theorem beginData_does (line : Line) (bus : Bus) :
    ∃ after, Does (beginData line) bus () after [] [] ∧ after.pos = bus.pos + 3 ∧ after.ticks = bus.ticks ∧
      after.selected = true :=
  ⟨_, (select_does bus).bind ((wrRdByte_dummy line _).bind ((wrRdByte_dummy line _).bind
    ((wrRdByte_dummy line _).bind (.pure _ _)))), rfl, rfl, rfl⟩

private theorem stopWrite_does (line : Line) (fuel : Nat) {bus : Bus} (selected : bus.selected = true) :
    ∃ after,
      (∃ result, Does (stopWrite line fuel) bus result after [0xFD] [] ∧ Finished after ∧
        ∃ next last, Waited line (fun k => k < fuel) (line.tick bus.ticks) (bus.pos + 2) (bus.ticks + 1) result next last) ∨
      Hangs (stopWrite line fuel) bus after [0xFD] [] ∧
        Pending line (line.tick bus.ticks) (bus.pos + 2) (bus.ticks + 1) fuel := by
  let stopped := bus.clock .token [0xFD] [line.card bus.pos] 1
  let padded := stopped.clock .dummy [dummyByte] [line.card stopped.pos] 1
  have token : Does (wrRdByte line .token 0xFD) bus (line.card bus.pos) stopped [0xFD] [] :=
    wrRdByte_payload line (.inl rfl) 0xFD selected
  have dummy : Does (wrRdByte line .dummy dummyByte) stopped (line.card stopped.pos) padded [] [] := wrRdByte_dummy line _
  have kept : padded.selected = true := selected
  obtain ⟨waitedBus, _, outcome⟩ := waitReady_does line fuel kept
  rcases outcome with ⟨result, waits, waited⟩ | ⟨hangs, pending⟩
  · obtain ⟨after, finishes, _, _, finished⟩ := finish_does line waitedBus
    exact ⟨after, .inl ⟨result, token.bind (dummy.bind (waits.bind (finishes.bind (.pure _ _)))), finished, _, _, waited⟩⟩
  · exact ⟨waitedBus, .inr ⟨token.bind_hangs (dummy.bind_hangs hangs.bind), pending⟩⟩

/-- CMD25 is answered, and the blocks start at `data`. -/
def WriteBegun (line : Line) (type : CardType) (start : Nat) (response : UInt8) (data : Nat) : Prop :=
  ∃ announced answered, Announced line type start announced ∧ Responds line announced response answered ∧
    data = answered + 3

private theorem WriteBegun.unique {line : Line} {type : CardType} {start first second : Nat} {response again : UInt8}
    (one : WriteBegun line type start response first) (other : WriteBegun line type start again second) :
    response = again ∧ first = second := by
  obtain ⟨announced, answered, prelude, responds, rfl⟩ := one
  obtain ⟨announced', answered', prelude', responds', rfl⟩ := other
  cases prelude.unique prelude'
  obtain ⟨rfl, rfl⟩ := responds.unique responds'
  exact ⟨rfl, rfl⟩

/-- The call up to the loop: an answer other than 0x00 ends it, else the blocks follow. -/
theorem writeMultiBlock_begins (line : Line) (fuel : Nat) (type : CardType) (sector : UInt32) (buffer : Nat → UInt8)
    (count : SectorCount) (bus : Bus) :
    (∃ response data after, response ≠ 0 ∧ WriteBegun line type bus.pos response data ∧ Finished after ∧
      Does (spisdWriteMultiBlock line fuel type sector buffer count) bus .error after [] (announcement type ++ [cmd25])) ∨
    ∃ begun, WriteBegun line type bus.pos 0 begun.pos ∧ begun.ticks = bus.ticks ∧ begun.selected = true ∧
      Logs bus begun [] (announcement type ++ [cmd25]) ∧
      (spisdWriteMultiBlock line fuel type sector buffer count).run bus =
        (writeBlocks line fuel buffer 0 count.value >>= endWrite line fuel).run begun := by
  obtain ⟨announcedBus, announces, announceTicks, announced⟩ := announceBlocks_does line type count bus
  obtain ⟨response, answered, sends, sendTicks, finished, responds⟩ :=
    sendCommand_does line cmd25 (sectorAddress type sector) 1 announcedBus
  by_cases good : response = 0
  · subst good
    obtain ⟨begun, begins, pos, ticks, selected⟩ := beginData_does line answered
    refine .inr ⟨begun, ⟨announcedBus.pos, answered.pos, announced, responds, pos⟩,
      ticks.trans (sendTicks.trans announceTicks), selected, announces.logs.trans (sends.logs.trans begins.logs), ?_⟩
    refine (Comp.run_bind_some announces.run).trans ((Comp.run_bind_some sends.run).trans ?_)
    rw [if_pos rfl]
    exact Comp.run_bind_some begins.run
  · refine .inl ⟨response, answered.pos + 3, answered, good, ⟨announcedBus.pos, answered.pos, announced, responds, rfl⟩,
      finished, announces.bind (sends.bind ?_)⟩
    rw [if_neg good]
    exact .pure _ _

/-- Every way a multiple block write can go. -/
inductive WriteEnd (line : Line) (fuel : Nat) (type : CardType) (sector : UInt32) (buffer : Nat → UInt8)
    (count : SectorCount) (bus : Bus) : Prop where
  | rejected (response : UInt8) (data : Nat) (after : Bus) (bad : response ≠ 0)
      (begun : WriteBegun line type bus.pos response data) (finished : Finished after)
      (does : Does (spisdWriteMultiBlock line fuel type sector buffer count) bus .error after []
        (announcement type ++ [cmd25]))
  | stopped (result : Result) (data pos ticks next last : Nat) (after : Bus) (begun : WriteBegun line type bus.pos 0 data)
      (blocks : Accepted line (fun k => k < fuel) count.value data bus.ticks pos ticks)
      (waited : Waited line (fun k => k < fuel) (line.tick ticks) (pos + 2) (ticks + 1) result next last)
      (finished : Finished after)
      (does : Does (spisdWriteMultiBlock line fuel type sector buffer count) bus result after
        (frames buffer 0 count.value ++ [0xFD]) (announcement type ++ [cmd25]))
  | aborted (result : Result) (k data pos ticks : Nat) (after : Bus) (inside : k < count.value) (failed : result ≠ .ok)
      (begun : WriteBegun line type bus.pos 0 data)
      (blocks : Accepted line (fun k => k < fuel) k data bus.ticks pos ticks)
      (fails : BlockFails line (fun k => k < fuel) pos ticks) (finished : Finished after)
      (does : Does (spisdWriteMultiBlock line fuel type sector buffer count) bus result after
        (frames buffer 0 (k + 1)) (announcement type ++ [cmd25] ++ [cmd12]))
  | waitingBlock (k data pos ticks : Nat) (after : Bus) (issued : List UInt8) (inside : k < count.value)
      (begun : WriteBegun line type bus.pos 0 data)
      (blocks : Accepted line (fun k => k < fuel) k data bus.ticks pos ticks)
      (busy : BlockFails line (fun k => k < fuel) pos ticks ∨
        Pending line (line.tick ticks) (pos + 516) (ticks + 1) fuel)
      (stops : issued = announcement type ++ [cmd25] ∨ issued = announcement type ++ [cmd25] ++ [cmd12])
      (hangs : Hangs (spisdWriteMultiBlock line fuel type sector buffer count) bus after (frames buffer 0 (k + 1)) issued)
  | waitingStop (data pos ticks : Nat) (after : Bus) (begun : WriteBegun line type bus.pos 0 data)
      (blocks : Accepted line (fun k => k < fuel) count.value data bus.ticks pos ticks)
      (pending : Pending line (line.tick ticks) (pos + 2) (ticks + 1) fuel)
      (hangs : Hangs (spisdWriteMultiBlock line fuel type sector buffer count) bus after
        (frames buffer 0 count.value ++ [0xFD]) (announcement type ++ [cmd25]))

theorem writeMultiBlock_ends (line : Line) (fuel : Nat) (type : CardType) (sector : UInt32) (buffer : Nat → UInt8)
    (count : SectorCount) (bus : Bus) : WriteEnd line fuel type sector buffer count bus := by
  rcases writeMultiBlock_begins line fuel type sector buffer count bus with
    ⟨response, data, after, bad, begun, finished, does⟩ | ⟨begunBus, begun, ticks, selected, logs, run⟩
  · exact .rejected response data after bad begun finished does
  · have offsets : ∀ i < 0 + count.value, blockOffset i = i * blockSize := fun i below =>
      blockOffset_eq count (by omega)
    have ends := writeBlocks_ends line fuel buffer 0 count.value offsets selected
    cases ends with
    | accepted middle does still blocks =>
      rw [ticks] at blocks
      obtain ⟨after, ⟨result, stops, finished, next, last, waited⟩ | ⟨hangs, pending⟩⟩ := stopWrite_does line fuel still
      · have whole : Does (writeBlocks line fuel buffer 0 count.value >>= endWrite line fuel) begunBus result after
            (frames buffer 0 count.value ++ [0xFD]) [] := does.bind stops
        have all := Does.follow run logs whole
        rw [List.append_nil] at all
        exact .stopped result begunBus.pos middle.pos middle.ticks next last after begun blocks waited finished all
      · have whole : Hangs (writeBlocks line fuel buffer 0 count.value >>= endWrite line fuel) begunBus after
            (frames buffer 0 count.value ++ [0xFD]) [] := does.bind_hangs hangs
        have all := Hangs.follow run logs whole
        rw [List.append_nil] at all
        exact .waitingStop begunBus.pos middle.pos middle.ticks after begun blocks pending all
    | aborted after result k pos reading inside failed does finished blocks fails =>
      rw [ticks] at blocks
      have whole : Does (writeBlocks line fuel buffer 0 count.value >>= endWrite line fuel) begunBus result after
          (frames buffer 0 (k + 1) ++ []) [cmd12] := does.bind (.pure _ _)
      rw [List.append_nil] at whole
      have all := Does.follow run logs whole
      exact .aborted result k begunBus.pos pos reading after inside failed begun blocks fails finished all
    | waiting after issued k pos reading inside hangs stops blocks busy =>
      rw [ticks] at blocks
      have whole : Hangs (writeBlocks line fuel buffer 0 count.value >>= endWrite line fuel) begunBus after
          (frames buffer 0 (k + 1)) issued := hangs.bind
      have all := Hangs.follow run logs whole
      refine .waitingBlock k begunBus.pos pos reading after _ inside begun blocks busy ?_ all
      rcases stops with rfl | rfl
      · exact .inl (List.append_nil _)
      · exact .inr rfl

/-- CMD25 is answered 0x00, every block is accepted, and the card is ready in time
after each block and after the stop token. -/
def WriteAccepted (line : Line) (type : CardType) (count : SectorCount) (bus : Bus) : Prop :=
  ∃ data pos ticks next last, WriteBegun line type bus.pos 0 data ∧
    Accepted line (fun _ => True) count.value data bus.ticks pos ticks ∧
    Waited line (fun _ => True) (line.tick ticks) (pos + 2) (ticks + 1) .ok next last

private theorem writeMultiBlock_ok_iff (line : Line) (type : CardType) (sector : UInt32) (buffer : Nat → UInt8)
    (count : SectorCount) (bus : Bus) :
    (∃ after, Comp.Returns (fun fuel => spisdWriteMultiBlock line fuel type sector buffer count) bus .ok after) ↔
      WriteAccepted line type count bus := by
  constructor
  · intro returns
    obtain ⟨after, fuel, returned⟩ := returns
    cases writeMultiBlock_ends line fuel type sector buffer count bus with
    | rejected _ _ _ _ _ _ does => cases returned.symm.trans does.run
    | stopped result data pos ticks next last other begun blocks waited _ does =>
      cases returned.symm.trans does.run
      exact ⟨data, pos, ticks, next, last, begun, blocks.mono fun _ _ => trivial, waited.mono fun _ _ => trivial⟩
    | aborted _ _ _ _ _ _ _ failed _ _ _ _ does =>
      cases returned.symm.trans does.run
      exact absurd rfl failed
    | waitingBlock _ _ _ _ _ _ _ _ _ _ _ hangs => cases returned.symm.trans hangs.run
    | waitingStop _ _ _ _ _ _ _ hangs => cases returned.symm.trans hangs.run
  · intro accepts
    obtain ⟨data, pos, ticks, next, last, begun, blocks, waited⟩ := accepts
    obtain ⟨first, early⟩ := blocks.bounded
    obtain ⟨second, late⟩ := waited.bounded
    have accepted : Accepted line (fun k => k < max first second) count.value data bus.ticks pos ticks :=
      early.mono fun k below => Nat.lt_of_lt_of_le below (Nat.le_max_left first second)
    have ready : Waited line (fun k => k < max first second) (line.tick ticks) (pos + 2) (ticks + 1) .ok next last :=
      late.mono fun k below => Nat.lt_of_lt_of_le below (Nat.le_max_right first second)
    cases writeMultiBlock_ends line (max first second) type sector buffer count bus with
    | rejected response _ _ bad again => exact absurd (again.unique begun).1 bad
    | stopped result data' pos' ticks' next' last' after again blocks' waited' _ does =>
      obtain ⟨_, rfl⟩ := begun.unique again
      obtain ⟨rfl, rfl⟩ := accepted.unique blocks'
      obtain ⟨rfl, _⟩ := ready.unique waited'
      exact ⟨after, _, does.run⟩
    | aborted _ k data' _ _ _ inside _ again blocks' fails =>
      obtain ⟨_, rfl⟩ := begun.unique again
      exact absurd (accepted.le_failure blocks' fails) (Nat.not_le_of_lt inside)
    | waitingBlock k data' _ _ _ _ inside again blocks' busy =>
      obtain ⟨_, rfl⟩ := begun.unique again
      rcases busy with fails | pending
      · exact absurd (accepted.le_failure blocks' fails) (Nat.not_le_of_lt inside)
      · obtain ⟨_, _, block⟩ := accepted.block inside blocks'
        exact (pending.not_waited block.2).elim
    | waitingStop data' _ _ _ again blocks' pending =>
      obtain ⟨_, rfl⟩ := begun.unique again
      obtain ⟨rfl, rfl⟩ := accepted.unique blocks'
      exact (pending.not_waited ready).elim

/-- What a write does when the block `k` fails: it sends the blocks up to that one,
no stop token, and stops the transfer with one CMD12. A call that still waits for the
card has not sent more than that. -/
structure Aborts (line : Line) (type : CardType) (sector : UInt32) (buffer : Nat → UInt8) (count : SectorCount) (bus : Bus)
    (k : Nat) : Prop where
  returned : ∀ {result after},
    Comp.Returns (fun fuel => spisdWriteMultiBlock line fuel type sector buffer count) bus result after →
      result ≠ .ok ∧ Logs bus after (frames buffer 0 (k + 1)) (announcement type ++ [cmd25] ++ [cmd12])
  waiting : ∀ {fuel after}, (spisdWriteMultiBlock line fuel type sector buffer count).run bus = (none, after) →
    ∃ j issued, j ≤ k ∧ Logs bus after (frames buffer 0 (j + 1)) issued ∧
      (issued = announcement type ++ [cmd25] ∨ issued = announcement type ++ [cmd25] ++ [cmd12])

private theorem writeMultiBlock_aborts (line : Line) (type : CardType) (sector : UInt32) (buffer : Nat → UInt8)
    (count : SectorCount) (bus : Bus) {k data pos ticks : Nat} (inside : k < count.value)
    (begun : WriteBegun line type bus.pos 0 data) (blocks : Accepted line (fun _ => True) k data bus.ticks pos ticks)
    (fails : BlockFails line (fun _ => True) pos ticks) : Aborts line type sector buffer count bus k := by
  have ends := fun fuel => writeMultiBlock_ends line fuel type sector buffer count bus
  constructor
  · intro result after returns
    obtain ⟨fuel, returned⟩ := returns
    cases ends fuel with
    | rejected response _ _ bad again => exact absurd (again.unique begun).1 bad
    | stopped result' data' pos' ticks' next' last' after again blocks' =>
      obtain ⟨_, rfl⟩ := begun.unique again
      exact absurd (blocks'.le_failure blocks fails) (Nat.not_le_of_lt inside)
    | aborted result' j data' _ _ after' _ failed again blocks' fails' _ does =>
      obtain ⟨_, rfl⟩ := begun.unique again
      cases Nat.le_antisymm (blocks'.le_failure blocks fails) (blocks.le_failure blocks' fails')
      cases returned.symm.trans does.run
      exact ⟨failed, does.logs⟩
    | waitingBlock _ _ _ _ _ _ _ _ _ _ _ hangs => cases returned.symm.trans hangs.run
    | waitingStop _ _ _ _ _ _ _ hangs => cases returned.symm.trans hangs.run
  · intro fuel after lost
    cases ends fuel with
    | rejected response _ _ bad again => exact absurd (again.unique begun).1 bad
    | stopped _ _ _ _ _ _ _ _ _ _ _ does => cases lost.symm.trans does.run
    | aborted _ _ _ _ _ _ _ _ _ _ _ _ does => cases lost.symm.trans does.run
    | waitingBlock j data' _ _ after' issued _ again blocks' _ stops hangs =>
      obtain ⟨_, rfl⟩ := begun.unique again
      cases lost.symm.trans hangs.run
      exact ⟨j, issued, blocks'.le_failure blocks fails, hangs.logs, stops⟩
    | waitingStop data' _ _ _ again blocks' =>
      obtain ⟨_, rfl⟩ := begun.unique again
      exact absurd (blocks'.le_failure blocks fails) (Nat.not_le_of_lt inside)

/-- The multiple block write as its caller and the card see it. -/
structure WriteProtocol (line : Line) (type : CardType) (sector : UInt32) (buffer : Nat → UInt8) (count : SectorCount)
    (bus : Bus) : Prop where
  unique : ∀ {result other after final},
    Comp.Returns (fun fuel => spisdWriteMultiBlock line fuel type sector buffer count) bus result after →
    Comp.Returns (fun fuel => spisdWriteMultiBlock line fuel type sector buffer count) bus other final →
      result = other ∧ after = final
  returns : Ticking line →
    ∃ result after, Comp.Returns (fun fuel => spisdWriteMultiBlock line fuel type sector buffer count) bus result after
  ok_iff : (∃ after, Comp.Returns (fun fuel => spisdWriteMultiBlock line fuel type sector buffer count) bus .ok after) ↔
    WriteAccepted line type count bus
  sent : ∀ {after}, Comp.Returns (fun fuel => spisdWriteMultiBlock line fuel type sector buffer count) bus .ok after →
    Logs bus after (frames buffer 0 count.value ++ [0xFD]) (announcement type ++ [cmd25])
  aborts : ∀ {k data pos ticks}, k < count.value → WriteBegun line type bus.pos 0 data →
    Accepted line (fun _ => True) k data bus.ticks pos ticks → BlockFails line (fun _ => True) pos ticks →
      Aborts line type sector buffer count bus k
  rejected : ∀ {response data}, response ≠ 0 → WriteBegun line type bus.pos response data → ∀ fuel, ∃ after,
    Does (spisdWriteMultiBlock line fuel type sector buffer count) bus .error after [] (announcement type ++ [cmd25])

/-- Against every card, every tick counter and every buffer, from every state of the bus. -/
theorem spisdWriteMultiBlock_protocol (line : Line) (type : CardType) (sector : UInt32) (buffer : Nat → UInt8)
    (count : SectorCount) (bus : Bus) : WriteProtocol line type sector buffer count bus where
  unique one two := one.unique (spisdWriteMultiBlock_steady line type sector buffer count) two
  returns ticking := (spisdWriteMultiBlock_converges ticking type sector buffer count).returns bus
  ok_iff := writeMultiBlock_ok_iff line type sector buffer count bus
  sent := by
    intro after returns
    obtain ⟨fuel, returned⟩ := returns
    cases writeMultiBlock_ends line fuel type sector buffer count bus with
    | rejected _ _ _ _ _ _ does => cases returned.symm.trans does.run
    | stopped _ _ _ _ _ _ _ _ _ _ _ does =>
      cases returned.symm.trans does.run
      exact does.logs
    | aborted _ _ _ _ _ _ _ failed _ _ _ _ does =>
      cases returned.symm.trans does.run
      exact absurd rfl failed
    | waitingBlock _ _ _ _ _ _ _ _ _ _ _ hangs => cases returned.symm.trans hangs.run
    | waitingStop _ _ _ _ _ _ _ hangs => cases returned.symm.trans hangs.run
  aborts inside begun blocks fails := writeMultiBlock_aborts line type sector buffer count bus inside begun blocks fails
  rejected := by
    intro response data bad begun fuel
    cases writeMultiBlock_ends line fuel type sector buffer count bus with
    | rejected _ _ after _ _ _ does => exact ⟨after, does⟩
    | stopped _ _ _ _ _ _ _ again => exact absurd (begun.unique again).1 bad
    | aborted _ _ _ _ _ _ _ _ again => exact absurd (begun.unique again).1 bad
    | waitingBlock _ _ _ _ _ _ _ again => exact absurd (begun.unique again).1 bad
    | waitingStop _ _ _ _ again => exact absurd (begun.unique again).1 bad

end ArduinoK210.Sd
