import ArduinoK210.Sd.Write

/-! Reading from the card: when a read succeeds and what it leaves in the buffer. -/

namespace ArduinoK210.Sd

/-- The start tokens of blocks in a row, each by the place where its bytes begin. -/
def Tokens (line : Line) : Nat → List Nat → Nat → Prop
  | start, [], next => next = start
  | start, data :: rest, next => Token line cmdWaitRespTimeout start data ∧ Tokens line (data + blockSize + 2) rest next

private theorem Tokens.unique {line : Line} {start next last : Nat} {first second : List Nat} (one : Tokens line start first next)
    (other : Tokens line start second last) (same : first.length = second.length) : first = second ∧ next = last := by
  induction first generalizing start second with
  | nil =>
    cases second with
    | nil => exact ⟨rfl, one.trans other.symm⟩
    | cons data rest => cases same
  | cons data rest ih =>
    cases second with
    | nil => cases same
    | cons data' rest' =>
      obtain ⟨token, tokens⟩ := one
      obtain ⟨token', tokens'⟩ := other
      cases token.unique token'
      obtain ⟨rfl, rfl⟩ := ih tokens tokens' (Nat.succ.inj same)
      exact ⟨rfl, rfl⟩

/-- The buffer after the blocks that begin at these places have been copied, the first
of them to the block `index` of the buffer. -/
def fill (line : Line) : Nat → List Nat → (Nat → UInt8) → Nat → UInt8
  | _, [], buffer => buffer
  | index, data :: rest, buffer =>
    fill line (index + 1) rest (Nor.put buffer (index * blockSize) (Nor.slice line.card data blockSize))

private theorem fill_before (line : Line) {index address : Nat} (datas : List Nat) (buffer : Nat → UInt8)
    (below : address < index * blockSize) : fill line index datas buffer address = buffer address := by
  induction datas generalizing index buffer with
  | nil => rfl
  | cons data rest ih =>
    have later : address < (index + 1) * blockSize := by
      rw [Nat.succ_mul]
      omega
    exact (ih _ later).trans (Nor.put_outside _ _ _ _ (.inl below))

theorem fill_block (line : Line) (index : Nat) {i data j : Nat} {datas : List Nat} (buffer : Nat → UInt8)
    (found : datas[i]? = some data) (inside : j < blockSize) :
    fill line index datas buffer ((index + i) * blockSize + j) = line.card (data + j) := by
  induction datas generalizing index i buffer with
  | nil => cases found
  | cons first rest ih =>
    cases i with
    | zero =>
      cases found
      have below : index * blockSize + j < (index + 1) * blockSize := by
        rw [Nat.succ_mul]
        omega
      refine (fill_before line rest _ below).trans (Nor.put_inside _ _ _ _ _ ?_)
      rw [Nor.slice_getElem?, if_pos inside]
    | succ i =>
      have shift : index + (i + 1) = index + 1 + i := by omega
      rw [shift]
      exact ih (index + 1) _ found

/-- How a read of blocks in a row ends: with all start tokens, or with one missing. -/
def BlocksRead (line : Line) (start index count : Nat) (buffer : Nat → UInt8) (result : Result) (filled : Nat → UInt8)
    (stop : Nat) : Prop :=
  (result = .ok ∧ ∃ datas next, datas.length = count ∧ Tokens line start datas next ∧ stop = next + 1 ∧
    filled = fill line index datas buffer) ∨
  (result = .error ∧ ∀ datas next, datas.length = count → ¬Tokens line start datas next)

private theorem readBlocks_does (line : Line) (index left : Nat) (buffer : Nat → UInt8)
    (offsets : ∀ i < index + left, blockOffset i = i * blockSize) {bus : Bus} (selected : bus.selected = true) :
    ∃ result filled after, Does (readBlocks line index left buffer) bus (result, filled) after [] [] ∧
      after.ticks = bus.ticks ∧ Finished after ∧ BlocksRead line bus.pos index left buffer result filled after.pos := by
  induction left generalizing index buffer bus with
  | zero =>
    obtain ⟨after, finishes, pos, ticks, finished⟩ := finish_does line bus
    refine ⟨.ok, buffer, after, finishes.bind (.pure _ _), ticks, finished, .inl ⟨rfl, ?_⟩⟩
    exact ⟨[], bus.pos, rfl, rfl, pos, rfl⟩
  | succ left ih =>
    obtain ⟨readBus, still, readTicks, ⟨data, token, pos, reads⟩ | ⟨missing, reads⟩⟩ :=
      readFramed_does line cmdWaitRespTimeout blockSize selected
    · obtain ⟨result, filled, after, does, ticks, finished, outcome⟩ :=
        ih (index + 1) (Nor.put buffer (blockOffset index) (Nor.slice line.card data blockSize))
          (fun i below => offsets i (by omega)) still
      refine ⟨result, filled, after, reads.bind does, ticks.trans readTicks, finished, ?_⟩
      rw [pos, offsets index (by omega)] at outcome
      rcases outcome with ⟨success, datas, next, size, tokens, place, same⟩ | ⟨error, none⟩
      · exact .inl ⟨success, data :: datas, next, congrArg (· + 1) size, ⟨token, tokens⟩, place, same⟩
      · refine .inr ⟨error, fun datas next size tokens => ?_⟩
        cases datas with
        | nil => cases size
        | cons first rest =>
          obtain ⟨token', tokens'⟩ := tokens
          cases token.unique token'
          exact none rest next (Nat.succ.inj size) tokens'
    · obtain ⟨after, finishes, _, ticks, finished⟩ := finish_does line readBus
      refine ⟨.error, buffer, after, reads.bind (finishes.bind (.pure _ _)), ticks.trans readTicks, finished, .inr ⟨rfl, ?_⟩⟩
      intro datas next size tokens
      cases datas with
      | nil => cases size
      | cons first rest => exact missing first tokens.1

private theorem spisdReadMultiBlockRead_does (line : Line) (buffer : Nat → UInt8) (count : SectorCount) (bus : Bus) :
    ∃ result filled after, Does (spisdReadMultiBlockRead line buffer count) bus (result, filled) after [] [] ∧
      after.ticks = bus.ticks ∧ BlocksRead line (bus.pos + 1) 0 count.value buffer result filled after.pos := by
  have offsets : ∀ i < 0 + count.value, blockOffset i = i * blockSize := fun i below => blockOffset_eq count (by omega)
  have selected : ((bus.clock .dummy [dummyByte] [line.card bus.pos] 1).setSelected true).selected = true := rfl
  obtain ⟨result, filled, after, blocks, ticks, _, outcome⟩ := readBlocks_does line 0 count.value buffer offsets selected
  exact ⟨result, filled, after, (wrRdByte_dummy line bus).bind ((select_does _).bind blocks), ticks, outcome⟩

/-- CMD18 is answered 0x00, all start tokens come within the limit, and CMD12 is
answered 0x00 with the card ready in time. -/
def ReadAccepted (line : Line) (patience : Nat → Prop) (count : SectorCount) (bus : Bus) : Prop :=
  ∃ answered datas next, Responds line bus.pos 0 answered ∧ datas.length = count.value ∧
    Tokens line (answered + 1) datas next ∧ Stopped line patience (next + 1) bus.ticks

/-- The bytes the card clocked after each start token are in the buffer. -/
def ReadFilled (line : Line) (count : SectorCount) (bus : Bus) (filled : Nat → UInt8) : Prop :=
  ∃ answered datas next, Responds line bus.pos 0 answered ∧ datas.length = count.value ∧
    Tokens line (answered + 1) datas next ∧
    ∀ i data j, datas[i]? = some data → j < blockSize → filled (blockSize * i + j) = line.card (data + j)

/-- Every way a read through FatFs can go. -/
inductive ReadEnd (line : Line) (fuel : Nat) (type : CardType) (sector : UInt64) (buffer : Nat → UInt8)
    (count : SectorCount) (bus : Bus) : Prop where
  | rejected (response : UInt8) (answered : Nat) (after : Bus) (bad : response ≠ 0)
      (responds : Responds line bus.pos response answered) (finished : Finished after)
      (does : Does (diskRead line fuel type sector buffer count) bus (.error, buffer) after [] [cmd18])
  | stopped (answered : Nat) (result : DResult) (filled : Nat → UInt8) (after : Bus)
      (responds : Responds line bus.pos 0 answered) (finished : Finished after)
      (does : Does (diskRead line fuel type sector buffer count) bus (result, filled) after [] [cmd18, cmd12])
      (ok_iff : result = .ok ↔ ReadAccepted line (fun k => k < fuel) count bus)
      (data : result = .ok → ReadFilled line count bus filled)
  | waiting (answered : Nat) (after : Bus) (responds : Responds line bus.pos 0 answered)
      (hangs : Hangs (diskRead line fuel type sector buffer count) bus after [] [cmd18, cmd12])
      (pending : ¬ReadAccepted line (fun k => k < fuel) count bus)

private theorem spisdReadMultiBlockBegin_does (line : Line) (type : CardType) (sector : UInt32) (bus : Bus) :
    ∃ response after, Responds line bus.pos response after.pos ∧ after.ticks = bus.ticks ∧ Finished after ∧
      Does (spisdReadMultiBlockBegin line type sector) bus (if response = 0 then .ok else .error) after [] [cmd18] := by
  obtain ⟨response, after, sends, ticks, finished, responds⟩ :=
    sendCommand_does line cmd18 (sectorAddress type sector) 1 bus
  refine ⟨response, after, responds, ticks, finished, sends.bind ?_⟩
  split
  next => exact .pure _ _
  next => exact .pure _ _

theorem cvtResult_ok_iff {result stopped : Result} :
    cvtResult (if result = .ok then stopped else result) = .ok ↔ result = .ok ∧ stopped = .ok := by
  cases result <;> cases stopped <;> simp [cvtResult]

section Ending

variable {line : Line} {patience : Nat → Prop} {count : SectorCount} {bus : Bus} {buffer filled : Nat → UInt8}
variable {result : Result} {answered stop : Nat}

private theorem BlocksRead.accepted_iff (blocks : BlocksRead line (answered + 1) 0 count.value buffer result filled stop)
    (responds : Responds line bus.pos 0 answered) :
    ReadAccepted line patience count bus ↔ result = .ok ∧ Stopped line patience stop bus.ticks := by
  rcases blocks with ⟨rfl, datas, next, size, tokens, rfl, _⟩ | ⟨rfl, none⟩
  · constructor
    · intro accepted
      obtain ⟨answered', datas', next', responds', size', tokens', stopped⟩ := accepted
      obtain ⟨_, rfl⟩ := responds.unique responds'
      obtain ⟨_, rfl⟩ := tokens.unique tokens' (size.trans size'.symm)
      exact ⟨rfl, stopped⟩
    · intro given
      obtain ⟨_, stopped⟩ := given
      exact ⟨answered, datas, next, responds, size, tokens, stopped⟩
  · constructor
    · intro accepted
      obtain ⟨answered', datas, next, responds', size, tokens, _⟩ := accepted
      obtain ⟨_, rfl⟩ := responds.unique responds'
      exact absurd tokens (none datas next size)
    · intro given
      obtain ⟨success, _⟩ := given
      cases success

private theorem BlocksRead.copied (blocks : BlocksRead line (answered + 1) 0 count.value buffer .ok filled stop)
    (responds : Responds line bus.pos 0 answered) : ReadFilled line count bus filled := by
  rcases blocks with ⟨_, datas, next, size, tokens, _, rfl⟩ | ⟨failed, _⟩
  · refine ⟨answered, datas, next, responds, size, tokens, fun i data j here inside => ?_⟩
    have block := fill_block line 0 buffer here inside
    rwa [Nat.zero_add, Nat.mul_comm] at block
  · cases failed

end Ending

theorem diskRead_ends (line : Line) (fuel : Nat) (type : CardType) (sector : UInt64) (buffer : Nat → UInt8)
    (count : SectorCount) (bus : Bus) : ReadEnd line fuel type sector buffer count bus := by
  obtain ⟨response, begun, responds, beginTicks, beginFinished, begins⟩ :=
    spisdReadMultiBlockBegin_does line type sector.toUInt32 bus
  by_cases good : response = 0
  · subst good
    rw [if_pos rfl] at begins
    obtain ⟨result, filled, readBus, reads, readTicks, blocks⟩ := spisdReadMultiBlockRead_does line buffer count begun
    have ticks : readBus.ticks = bus.ticks := readTicks.trans beginTicks
    obtain ⟨after, ⟨stopped, stops, finished, stopped_iff⟩ | ⟨hangs, middle, held, pending⟩⟩ :=
      stopTransmission_does line fuel readBus
    · rw [ticks] at stopped_iff
      refine .stopped begun.pos (cvtResult (if result = .ok then stopped else result)) filled after responds finished
        (begins.bind (reads.bind (stops.bind (.pure _ _)))) ?_ ?_
      · rw [cvtResult_ok_iff, blocks.accepted_iff responds, stopped_iff]
      · intro success
        obtain ⟨rfl, _⟩ := cvtResult_ok_iff.mp success
        exact blocks.copied responds
    · rw [ticks] at pending
      refine .waiting begun.pos after responds (begins.bind_hangs (reads.bind_hangs hangs.bind)) fun accepted => ?_
      obtain ⟨_, middle', next, last, held', waited⟩ := (blocks.accepted_iff responds).mp accepted
      obtain ⟨_, rfl⟩ := held.unique held'
      exact pending.not_waited waited
  · rw [if_neg good] at begins
    exact .rejected response begun.pos begun good responds beginFinished (begins.bind (.pure _ _))

/-- A read through FatFs as its caller and the card see it. -/
structure ReadProtocol (line : Line) (type : CardType) (sector : UInt64) (buffer : Nat → UInt8) (count : SectorCount)
    (bus : Bus) : Prop where
  stops : ∀ {response answered}, Responds line bus.pos response answered → ∀ {fuel reply after},
    (diskRead line fuel type sector buffer count).run bus = (reply, after) →
      Logs bus after [] (if response = 0 then [cmd18, cmd12] else [cmd18])
  ok_iff : (∃ filled after, Comp.Returns (fun fuel => diskRead line fuel type sector buffer count) bus (.ok, filled) after) ↔
    ReadAccepted line (fun _ => True) count bus
  data : ∀ {filled after}, Comp.Returns (fun fuel => diskRead line fuel type sector buffer count) bus (.ok, filled) after →
    ReadFilled line count bus filled

private theorem Stopped.bounded {line : Line} {patience : Nat → Prop} {start ticks : Nat} (stopped : Stopped line patience start ticks) :
    ∃ fuel, Stopped line (fun k => k < fuel) start ticks := by
  obtain ⟨middle, next, last, held, waited⟩ := stopped
  obtain ⟨fuel, ended⟩ := waited.bounded
  exact ⟨fuel, middle, next, last, held, ended⟩

private theorem diskRead_stops (line : Line) (type : CardType) (sector : UInt64) (buffer : Nat → UInt8) (count : SectorCount)
    {bus after : Bus} {response : UInt8} {answered fuel : Nat} {reply : Option (DResult × (Nat → UInt8))}
    (responds : Responds line bus.pos response answered)
    (run : (diskRead line fuel type sector buffer count).run bus = (reply, after)) :
    Logs bus after [] (if response = 0 then [cmd18, cmd12] else [cmd18]) := by
  cases diskRead_ends line fuel type sector buffer count bus with
  | rejected response' _ _ bad again _ does =>
    obtain ⟨rfl, _⟩ := responds.unique again
    cases run.symm.trans does.run
    rw [if_neg bad]
    exact does.logs
  | stopped _ _ _ _ again _ does =>
    obtain ⟨rfl, _⟩ := responds.unique again
    cases run.symm.trans does.run
    exact does.logs
  | waiting _ _ again hangs =>
    obtain ⟨rfl, _⟩ := responds.unique again
    cases run.symm.trans hangs.run
    exact hangs.logs

theorem diskRead_protocol (line : Line) (type : CardType) (sector : UInt64) (buffer : Nat → UInt8) (count : SectorCount)
    (bus : Bus) : ReadProtocol line type sector buffer count bus := by
  refine ⟨fun responds => diskRead_stops line type sector buffer count responds, ⟨?_, ?_⟩, ?_⟩
  · intro returns
    obtain ⟨filled, after, fuel, returned⟩ := returns
    cases diskRead_ends line fuel type sector buffer count bus with
    | rejected _ _ _ _ _ _ does => cases returned.symm.trans does.run
    | stopped _ _ _ _ _ _ does ok_iff =>
      cases returned.symm.trans does.run
      obtain ⟨answered, datas, next, responds, size, tokens, middle, ready, last, held, waited⟩ := ok_iff.mp rfl
      exact ⟨answered, datas, next, responds, size, tokens, middle, ready, last, held, waited.mono fun _ _ => trivial⟩
    | waiting _ _ _ hangs => cases returned.symm.trans hangs.run
  · intro accepts
    obtain ⟨answered, datas, next, responds, size, tokens, stopped⟩ := accepts
    obtain ⟨fuel, ended⟩ := stopped.bounded
    have accepted : ReadAccepted line (fun k => k < fuel) count bus :=
      ⟨answered, datas, next, responds, size, tokens, ended⟩
    cases diskRead_ends line fuel type sector buffer count bus with
    | rejected response _ _ bad again => exact absurd (again.unique responds).1 bad
    | stopped _ result filled after _ _ does ok_iff =>
      cases ok_iff.mpr accepted
      exact ⟨filled, after, fuel, does.run⟩
    | waiting _ _ _ _ pending => exact absurd accepted pending
  · intro filled after returns
    obtain ⟨fuel, returned⟩ := returns
    cases diskRead_ends line fuel type sector buffer count bus with
    | rejected _ _ _ _ _ _ does => cases returned.symm.trans does.run
    | stopped _ _ _ _ _ _ does _ data =>
      cases returned.symm.trans does.run
      exact data rfl
    | waiting _ _ _ hangs => cases returned.symm.trans hangs.run

end ArduinoK210.Sd
