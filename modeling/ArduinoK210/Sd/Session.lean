import ArduinoK210.Sd.Read

/-! Sequences of calls on one card: chip select is handed from call to call released,
and what goes out while it is released is dummy bytes. -/

namespace ArduinoK210.Sd

inductive Call where
  | readBlock (sector : UInt32) (buffer : Nat → UInt8)
  | writeBlock (sector : UInt32) (buffer : Nat → UInt8)
  | writeMultiBlock (sector : UInt32) (buffer : Nat → UInt8) (count : SectorCount)
  | diskRead (sector : UInt64) (buffer : Nat → UInt8) (count : SectorCount)

/-- What a call hands back: a driver or a FatFs result, and the buffer it has filled. -/
inductive Reply where
  | result (result : Result)
  | filled (result : Result) (buffer : Nat → UInt8)
  | disk (result : DResult) (buffer : Nat → UInt8)

def perform (line : Line) (type : CardType) (fuel : Nat) : Call → Io Reply
  | .readBlock sector buffer => do
    let reply ← spisdReadBlock line type sector buffer
    pure (.filled reply.1 reply.2)
  | .writeBlock sector buffer => do
    let result ← spisdWriteBlock line fuel type sector buffer
    pure (.result result)
  | .writeMultiBlock sector buffer count => do
    let result ← spisdWriteMultiBlock line fuel type sector buffer count
    pure (.result result)
  | .diskRead sector buffer count => do
    let reply ← diskRead line fuel type sector buffer count
    pure (.disk reply.1 reply.2)

def session (line : Line) (type : CardType) (fuel : Nat) : List Call → Io (List Reply)
  | [] => pure []
  | call :: rest => do
    let reply ← perform line type fuel call
    let replies ← session line type fuel rest
    pure (reply :: replies)

/-- A computation that finishes the transfer when it comes back, and sends in an
orderly way as far as it gets. -/
def Disciplined {α : Type} (computation : Io α) (before : Bus) : Prop :=
  ∃ after sent issued, (∃ value, Does computation before value after sent issued ∧ Finished after) ∨
    Hangs computation before after sent issued

section Rules

variable {α β : Type} {first : Io α} {next : α → Io β} {before middle : Bus} {value : α} {sent issued : List UInt8}

private theorem Does.disciplined (one : Does first before value middle sent issued) (two : Disciplined (next value) middle) :
    Disciplined (first >>= next) before := by
  obtain ⟨after, rest, more, ⟨result, does, finished⟩ | hangs⟩ := two
  · exact ⟨after, _, _, .inl ⟨result, one.bind does, finished⟩⟩
  · exact ⟨after, _, _, .inr (one.bind_hangs hangs)⟩

private theorem Disciplined.map (kept : Disciplined first before) (f : α → β) :
    Disciplined (first >>= fun value => pure (f value)) before := by
  obtain ⟨after, sent, issued, ⟨value, does, finished⟩ | hangs⟩ := kept
  · exact ⟨after, _, _, .inl ⟨f value, does.bind (.pure _ _), finished⟩⟩
  · exact ⟨after, _, _, .inr hangs.bind⟩

private theorem finish_disciplined (line : Line) (value : α) (bus : Bus) :
    Disciplined (finish line >>= fun _ => pure value) bus := by
  obtain ⟨after, finishes, _, _, finished⟩ := finish_does line bus
  exact ⟨after, _, _, .inl ⟨value, finishes.bind (.pure _ _), finished⟩⟩

end Rules

private theorem spisdReadBlock_disciplined (line : Line) (type : CardType) (sector : UInt32) (buffer : Nat → UInt8) (bus : Bus) :
    Disciplined (spisdReadBlock line type sector buffer) bus := by
  obtain ⟨response, held, sends, _, selected, _⟩ := sendCommandHold_does line cmd17 (sectorAddress type sector) 1 bus
  apply sends.disciplined
  split
  next =>
    obtain ⟨readBus, _, _, ⟨data, _, _, reads⟩ | ⟨_, reads⟩⟩ := readFramed_does line cmdWaitRespTimeout blockSize selected
    · exact reads.disciplined (finish_disciplined line _ readBus)
    · exact reads.disciplined (finish_disciplined line _ readBus)
  next => exact finish_disciplined line _ held

private theorem spisdWriteBlock_disciplined (line : Line) (fuel : Nat) (type : CardType) (sector : UInt32) (buffer : Nat → UInt8)
    (bus : Bus) : Disciplined (spisdWriteBlock line fuel type sector buffer) bus := by
  obtain ⟨response, answered, sends, _, sendFinished, _⟩ :=
    sendCommand_does line cmd24 (sectorAddress type sector) 1 bus
  by_cases good : response = 0
  · obtain ⟨begun, begins, _, _, selected⟩ := beginData_does line answered
    obtain ⟨sentBus, block, _, _, still⟩ := sendBlock_does line 0xFE (Nor.slice_length buffer 0 blockSize) selected
    apply sends.disciplined
    rw [if_pos good]
    apply begins.disciplined
    apply block.disciplined
    split
    next =>
      obtain ⟨waitedBus, _, ⟨result, waits, _⟩ | ⟨hangs, _⟩⟩ := waitReady_does line fuel still
      · exact waits.disciplined (finish_disciplined line result waitedBus)
      · exact ⟨waitedBus, _, _, .inr hangs.bind⟩
    next => exact finish_disciplined line _ sentBus
  · apply sends.disciplined
    rw [if_neg good]
    exact ⟨answered, _, _, .inl ⟨.error, .pure _ _, sendFinished⟩⟩

private theorem spisdWriteMultiBlock_disciplined (line : Line) (fuel : Nat) (type : CardType) (sector : UInt32)
    (buffer : Nat → UInt8) (count : SectorCount) (bus : Bus) :
    Disciplined (spisdWriteMultiBlock line fuel type sector buffer count) bus := by
  cases writeMultiBlock_ends line fuel type sector buffer count bus with
  | rejected _ _ after _ _ finished does => exact ⟨after, _, _, .inl ⟨_, does, finished⟩⟩
  | stopped _ _ _ _ _ _ after _ _ _ finished does => exact ⟨after, _, _, .inl ⟨_, does, finished⟩⟩
  | aborted _ _ _ _ _ after _ _ _ _ _ finished does => exact ⟨after, _, _, .inl ⟨_, does, finished⟩⟩
  | waitingBlock _ _ _ _ after _ _ _ _ _ _ hangs => exact ⟨after, _, _, .inr hangs⟩
  | waitingStop _ _ _ after _ _ _ hangs => exact ⟨after, _, _, .inr hangs⟩

private theorem diskRead_disciplined (line : Line) (fuel : Nat) (type : CardType) (sector : UInt64) (buffer : Nat → UInt8)
    (count : SectorCount) (bus : Bus) : Disciplined (diskRead line fuel type sector buffer count) bus := by
  cases diskRead_ends line fuel type sector buffer count bus with
  | rejected _ _ after _ _ finished does => exact ⟨after, _, _, .inl ⟨_, does, finished⟩⟩
  | stopped _ _ _ after _ finished does => exact ⟨after, _, _, .inl ⟨_, does, finished⟩⟩
  | waiting _ after _ hangs => exact ⟨after, _, _, .inr hangs⟩

private theorem perform_disciplined (line : Line) (type : CardType) (fuel : Nat) (call : Call) (bus : Bus) :
    Disciplined (perform line type fuel call) bus := by
  cases call with
  | readBlock sector buffer => exact (spisdReadBlock_disciplined line type sector buffer bus).map _
  | writeBlock sector buffer => exact (spisdWriteBlock_disciplined line fuel type sector buffer bus).map _
  | writeMultiBlock sector buffer count =>
    exact (spisdWriteMultiBlock_disciplined line fuel type sector buffer count bus).map _
  | diskRead sector buffer count => exact (diskRead_disciplined line fuel type sector buffer count bus).map _

/-- A session that comes back has sent everything in an orderly way, and so has one
that still waits for the card. -/
theorem session_orderly (line : Line) (type : CardType) (fuel : Nat) (calls : List Call) {bus after : Bus}
    {replies : Option (List Reply)} (run : (session line type fuel calls).run bus = (replies, after)) :
    ∃ sent issued, Logs bus after sent issued := by
  induction calls generalizing bus replies after with
  | nil =>
    cases run
    exact ⟨[], [], .refl _⟩
  | cons call rest ih =>
    obtain ⟨middle, sent, issued, ⟨reply, does, _⟩ | hangs⟩ := perform_disciplined line type fuel call bus
    · rw [session, Comp.run_bind_some does.run] at run
      cases later : (session line type fuel rest).run middle with
      | mk answer final =>
        obtain ⟨more, others, logs⟩ := ih later
        cases answer with
        | none =>
          rw [Comp.run_bind_none later] at run
          cases run
          exact ⟨_, _, does.logs.trans logs⟩
        | some answer =>
          rw [Comp.run_bind_some later] at run
          cases run
          exact ⟨_, _, does.logs.trans logs⟩
    · rw [session, Comp.run_bind_none hangs.run] at run
      cases run
      exact ⟨_, _, hangs.logs⟩

/-- What every call keeps, from the state the bus is in when it is made. -/
structure CallKept (line : Line) (type : CardType) (call : Call) (bus : Bus) : Prop where
  returns : Ticking line → ∃ reply after, Comp.Returns (fun fuel => perform line type fuel call) bus reply after
  unique : ∀ {reply other after final}, Comp.Returns (fun fuel => perform line type fuel call) bus reply after →
    Comp.Returns (fun fuel => perform line type fuel call) bus other final → reply = other ∧ after = final
  finished : ∀ {reply after}, Comp.Returns (fun fuel => perform line type fuel call) bus reply after → Finished after
  read : ∀ {sector buffer count}, call = .diskRead sector buffer count → ReadProtocol line type sector buffer count bus

private theorem perform_converges {line : Line} (ticking : Ticking line) (type : CardType) (call : Call) :
    Comp.Converges fun fuel => perform line type fuel call := by
  cases call with
  | readBlock sector buffer => exact .bind (spisdReadBlock_converges line type sector buffer) fun _ => .pure _
  | writeBlock sector buffer => exact .bind (spisdWriteBlock_converges ticking type sector buffer) fun _ => .pure _
  | writeMultiBlock sector buffer count =>
    exact .bind (spisdWriteMultiBlock_converges ticking type sector buffer count) fun _ => .pure _
  | diskRead sector buffer count => exact .bind (diskRead_converges ticking type sector buffer count) fun _ => .pure _

private theorem perform_steady (line : Line) (type : CardType) (call : Call) :
    Comp.Steady fun fuel => perform line type fuel call := by
  cases call with
  | readBlock sector buffer => exact .const _
  | writeBlock sector buffer => exact .bind (spisdWriteBlock_steady line type sector buffer) fun _ => .const _
  | writeMultiBlock sector buffer count =>
    exact .bind (spisdWriteMultiBlock_steady line type sector buffer count) fun _ => .const _
  | diskRead sector buffer count => exact .bind (diskRead_steady line type sector buffer count) fun _ => .const _

private theorem perform_kept (line : Line) (type : CardType) (call : Call) (bus : Bus) : CallKept line type call bus where
  returns ticking := (perform_converges ticking type call).returns bus
  unique one two := one.unique (perform_steady line type call) two
  finished := by
    intro reply after returns
    obtain ⟨fuel, returned⟩ := returns
    obtain ⟨final, sent, issued, ⟨value, does, finished⟩ | hangs⟩ := perform_disciplined line type fuel call bus
    · cases returned.symm.trans does.run
      exact finished
    · cases returned.symm.trans hangs.run
  read := by
    intro sector buffer count same
    subst same
    exact diskRead_protocol line type sector buffer count bus

/-- Sequences of calls on a card. -/
structure SessionKept (line : Line) (type : CardType) (calls : List Call) (bus : Bus) : Prop where
  orderly : ∀ {fuel replies after}, (session line type fuel calls).run bus = (replies, after) →
    ∃ new, after.log = bus.log ++ new ∧ ∀ event ∈ new, Orderly event
  calls : ∀ {front call back before replies}, calls = front ++ call :: back →
    Comp.Returns (fun fuel => session line type fuel front) bus replies before → CallKept line type call before

theorem session_kept (line : Line) (type : CardType) (calls : List Call) (bus : Bus) :
    SessionKept line type calls bus := by
  refine ⟨fun {fuel replies after} run => ?_, fun {front call back before replies} _ _ => ?_⟩
  · obtain ⟨_, _, new, grown, _, _, orderly⟩ := session_orderly line type fuel calls run
    exact ⟨new, grown, orderly⟩
  · exact perform_kept line type call before

end ArduinoK210.Sd
