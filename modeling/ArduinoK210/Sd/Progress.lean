import ArduinoK210.Sd.Driver

/-! The driver comes back from every card: only the busy wait is bounded by time, so
that is all the tick counter is needed for. -/

namespace ArduinoK210.Sd

/-- From every reading on, the tick counter passes the busy timeout at last. -/
def Ticking (line : Line) : Prop := ∀ ticks, ∃ k, ¬line.tick (ticks + 1 + k) - line.tick ticks < line.timeout

section Steadiness

variable (line : Line)

private theorem waitLoop_steady (began : UInt32) : Comp.Steady (waitLoop line began) := by
  refine ⟨fun {less more} order => ?_⟩
  induction less generalizing more with
  | zero => exact ⟨fun returned => by cases returned⟩
  | succ less ih =>
    cases more with
    | zero => omega
    | succ more =>
      have rest := ih (Nat.le_of_succ_le_succ order)
      refine Comp.Extends.bind ⟨id⟩ fun byte => ?_
      split
      next => exact ⟨id⟩
      next =>
        refine Comp.Extends.bind ⟨id⟩ fun now => ?_
        split
        next => exact rest
        next => exact ⟨id⟩

private theorem waitReady_steady : Comp.Steady (waitReady line) := .bind (.const _) fun began => waitLoop_steady line began

private theorem stopTransmission_steady : Comp.Steady (stopTransmission line) := by
  refine .bind (.const _) fun response => .ite ?_ (.const _)
  exact .bind (waitReady_steady line) fun result => .const _

private theorem stopWrite_steady : Comp.Steady (stopWrite line) := by
  refine .bind (.const _) fun _ => .bind (.const _) fun _ => ?_
  exact .bind (waitReady_steady line) fun result => .const _

private theorem writeBlocks_steady (buffer : Nat → UInt8) (index left : Nat) :
    Comp.Steady fun fuel => writeBlocks line fuel buffer index left := by
  induction left generalizing index with
  | zero => exact .const _
  | succ left ih =>
    refine .bind (.const _) fun response => .ite ?_ ?_
    · refine .bind (waitReady_steady line) fun result => .ite (ih (index + 1)) ?_
      exact .bind (stopTransmission_steady line) fun _ => .const _
    · exact .bind (waitReady_steady line) fun _ => .bind (stopTransmission_steady line) fun _ => .const _

private theorem endWrite_steady (aborted : Option Result) : Comp.Steady fun fuel => endWrite line fuel aborted := by
  cases aborted with
  | some result => exact .const _
  | none => exact stopWrite_steady line

theorem spisdWriteMultiBlock_steady (type : CardType) (sector : UInt32) (buffer : Nat → UInt8) (count : SectorCount) :
    Comp.Steady fun fuel => spisdWriteMultiBlock line fuel type sector buffer count := by
  refine .bind (.const _) fun _ => .bind (.const _) fun response => .ite (.bind (.const _) fun _ => ?_) (.const _)
  exact .bind (writeBlocks_steady line buffer 0 count.value) fun aborted => endWrite_steady line aborted

theorem diskRead_steady (type : CardType) (sector : UInt64) (buffer : Nat → UInt8) (count : SectorCount) :
    Comp.Steady fun fuel => diskRead line fuel type sector buffer count := by
  refine .bind (.const _) fun started => .ite (.bind (.const _) fun result => ?_) (.const _)
  exact .bind (stopTransmission_steady line) fun stopped => .const _

theorem spisdWriteBlock_steady (type : CardType) (sector : UInt32) (buffer : Nat → UInt8) :
    Comp.Steady fun fuel => spisdWriteBlock line fuel type sector buffer := by
  refine .bind (.const _) fun response => .ite (.bind (.const _) fun _ => .bind (.const _) fun accepted => ?_) (.const _)
  exact .ite (.bind (waitReady_steady line) fun result => .const _) (.const _)

end Steadiness

section Convergence

variable {line : Line}

private theorem poll_converges (line : Line) (stop : UInt8 → Bool) (limit : Nat) :
    Comp.Converges fun _ => poll line stop limit := by
  induction limit with
  | zero => exact .pure _
  | succ limit ih => exact .bind (.act _) fun response => .ite (.pure _) ih

private theorem finish_converges (line : Line) : Comp.Converges fun _ => finish line :=
  .bind (.act _) fun _ => .bind (.act _) fun _ => .pure _

private theorem beginCommand_converges (line : Line) (cmd : UInt8) (arg : UInt32) (crc : UInt8) :
    Comp.Converges fun _ => beginCommand line cmd arg crc :=
  .bind (.act _) fun _ => .bind (.act _) fun _ => .act _

private theorem sendCommand_converges (line : Line) (cmd : UInt8) (arg : UInt32) (crc : UInt8) :
    Comp.Converges fun _ => sendCommand line cmd arg crc := by
  refine .bind (beginCommand_converges line cmd arg crc) fun _ => .bind (poll_converges line _ _) fun response => ?_
  exact .bind (finish_converges line) fun _ => .pure _

private theorem holdResponse_converges (line : Line) : Comp.Converges fun _ => holdResponse line :=
  .bind (poll_converges line _ _) fun _ => .pure _

private theorem sendCommandHold_converges (line : Line) (cmd : UInt8) (arg : UInt32) (crc : UInt8) :
    Comp.Converges fun _ => sendCommandHold line cmd arg crc := by
  refine .bind (beginCommand_converges line cmd arg crc) fun _ => .ite ?_ (holdResponse_converges line)
  exact .bind (.act _) fun _ => holdResponse_converges line

theorem waitLoop_succ (line : Line) (began : UInt32) (fuel : Nat) (bus : Bus) :
    (waitLoop line began (fuel + 1)).run bus =
      if line.card bus.pos = dummyByte then (some .ok, bus.clock .busy [dummyByte] [line.card bus.pos] 1)
      else if line.tick bus.ticks - began < line.timeout then
        (waitLoop line began fuel).run (bus.clock .busy [dummyByte] [line.card bus.pos] 1).readTick
      else (some .timeout, (bus.clock .busy [dummyByte] [line.card bus.pos] 1).readTick) := by
  refine (Comp.run_act_bind _ _ bus).trans ?_
  by_cases here : line.card bus.pos = dummyByte
  · rw [if_pos here, if_pos here]
    rfl
  · rw [if_neg here, if_neg here]
    refine (Comp.run_act_bind _ _ _).trans ?_
    exact apply_ite (fun rest : Io Result => rest.run _) _ _ _

private theorem waitLoop_returns (began : UInt32) {k : Nat} {bus : Bus}
    (expired : ¬line.tick (bus.ticks + k) - began < line.timeout) :
    ∃ result after, (waitLoop line began (k + 1)).run bus = (some result, after) := by
  induction k generalizing bus with
  | zero =>
    rw [Nat.add_zero] at expired
    rw [waitLoop_succ, if_neg expired]
    split
    next => exact ⟨_, _, rfl⟩
    next => exact ⟨_, _, rfl⟩
  | succ k ih =>
    have reached : (bus.clock .busy [dummyByte] [line.card bus.pos] 1).readTick.ticks + k = bus.ticks + (k + 1) := by
      simp only [Bus.readTick, Bus.clock]
      omega
    rw [waitLoop_succ]
    split
    next => exact ⟨_, _, rfl⟩
    next =>
      split
      next =>
        rw [← reached] at expired
        exact ih expired
      next => exact ⟨_, _, rfl⟩

private theorem waitReady_converges (ticking : Ticking line) : Comp.Converges (waitReady line) := by
  refine ⟨waitReady_steady line, fun bus => ?_⟩
  obtain ⟨k, expired⟩ := ticking bus.ticks
  have late : ¬line.tick (bus.readTick.ticks + k) - line.tick bus.ticks < line.timeout := expired
  obtain ⟨result, after, returned⟩ := waitLoop_returns (line.tick bus.ticks) late
  exact ⟨result, after, k + 1, returned⟩

private theorem stopTransmission_converges (ticking : Ticking line) : Comp.Converges (stopTransmission line) := by
  refine .bind (sendCommandHold_converges line _ _ _) fun response => .ite ?_ ?_
  · exact .bind (waitReady_converges ticking) fun result => .bind (finish_converges line) fun _ => .pure _
  · exact .bind (finish_converges line) fun _ => .pure _

private theorem sendBlock_converges (line : Line) (token : UInt8) (bytes : List UInt8) :
    Comp.Converges fun _ => sendBlock line token bytes :=
  .bind (.act _) fun _ => .bind (.act _) fun _ => .bind (.act _) fun _ => .bind (.act _) fun _ => .act _

private theorem beginData_converges (line : Line) : Comp.Converges fun _ => beginData line :=
  .bind (.act _) fun _ => .bind (.act _) fun _ => .bind (.act _) fun _ => .bind (.act _) fun _ => .pure _

private theorem writeBlocks_converges (ticking : Ticking line) (buffer : Nat → UInt8) (index left : Nat) :
    Comp.Converges fun fuel => writeBlocks line fuel buffer index left := by
  induction left generalizing index with
  | zero => exact .pure _
  | succ left ih =>
    have waits := waitReady_converges ticking
    have stops := stopTransmission_converges ticking
    refine .bind (sendBlock_converges line _ _) fun response => .ite ?_ ?_
    · exact .bind waits fun result => .ite (ih (index + 1)) (.bind stops fun _ => .pure _)
    · exact .bind waits fun _ => .bind stops fun _ => .pure _

private theorem announceBlocks_converges (line : Line) (type : CardType) (count : SectorCount) :
    Comp.Converges fun _ => announceBlocks line type count := by
  refine .ite (.pure _) (.bind (sendCommand_converges line _ _ _) fun _ => ?_)
  exact .bind (sendCommand_converges line _ _ _) fun _ => .pure _

private theorem endWrite_converges (ticking : Ticking line) (aborted : Option Result) :
    Comp.Converges fun fuel => endWrite line fuel aborted := by
  cases aborted with
  | some result => exact .pure _
  | none =>
    refine .bind (.act _) fun _ => .bind (.act _) fun _ => ?_
    exact .bind (waitReady_converges ticking) fun result => .bind (finish_converges line) fun _ => .pure _

theorem spisdWriteMultiBlock_converges (ticking : Ticking line) (type : CardType) (sector : UInt32)
    (buffer : Nat → UInt8) (count : SectorCount) :
    Comp.Converges fun fuel => spisdWriteMultiBlock line fuel type sector buffer count := by
  refine .bind (announceBlocks_converges line type count) fun _ => .bind (sendCommand_converges line _ _ _) fun response => ?_
  refine .ite (.bind (beginData_converges line) fun _ => ?_) (.pure _)
  exact .bind (writeBlocks_converges ticking buffer 0 count.value) fun aborted => endWrite_converges ticking aborted

private theorem readBuffer_converges (line : Line) (len : Nat) : Comp.Converges fun _ => readBuffer line len := by
  refine .bind (poll_converges line _ _) fun response => ?_
  cases response with
  | none => exact .pure _
  | some _ => exact .bind (.act _) fun data => .bind (.act _) fun _ => .bind (.act _) fun _ => .pure _

private theorem readBlocks_converges (line : Line) (index left : Nat) (buffer : Nat → UInt8) :
    Comp.Converges fun _ => readBlocks line index left buffer := by
  induction left generalizing index buffer with
  | zero => exact .bind (finish_converges line) fun _ => .pure _
  | succ left ih =>
    refine .bind (readBuffer_converges line _) fun data => ?_
    cases data with
    | none => exact .bind (finish_converges line) fun _ => .pure _
    | some bytes => exact ih (index + 1) _

theorem spisdReadBlock_converges (line : Line) (type : CardType) (sector : UInt32) (buffer : Nat → UInt8) :
    Comp.Converges fun _ => spisdReadBlock line type sector buffer := by
  refine .bind (sendCommandHold_converges line _ _ _) fun response => .ite ?_ (.bind (finish_converges line) fun _ => .pure _)
  refine .bind (readBuffer_converges line _) fun data => .bind (finish_converges line) fun _ => ?_
  cases data with
  | none => exact .pure _
  | some bytes => exact .pure _

theorem spisdWriteBlock_converges (ticking : Ticking line) (type : CardType) (sector : UInt32) (buffer : Nat → UInt8) :
    Comp.Converges fun fuel => spisdWriteBlock line fuel type sector buffer := by
  refine .bind (sendCommand_converges line _ _ _) fun response => .ite (.bind (beginData_converges line) fun _ => ?_) (.pure _)
  refine .bind (sendBlock_converges line _ _) fun accepted => .ite ?_ (.bind (finish_converges line) fun _ => .pure _)
  exact .bind (waitReady_converges ticking) fun result => .bind (finish_converges line) fun _ => .pure _

theorem diskRead_converges (ticking : Ticking line) (type : CardType) (sector : UInt64) (buffer : Nat → UInt8)
    (count : SectorCount) : Comp.Converges fun fuel => diskRead line fuel type sector buffer count := by
  have begins : Comp.Converges fun _ => spisdReadMultiBlockBegin line type sector.toUInt32 :=
    .bind (sendCommand_converges line _ _ _) fun response => .ite (.pure _) (.pure _)
  have reads : Comp.Converges fun _ => spisdReadMultiBlockRead line buffer count :=
    .bind (.act _) fun _ => .bind (.act _) fun _ => readBlocks_converges line _ _ _
  refine .bind begins fun started => .ite (.bind reads fun result => ?_) (.pure _)
  exact .bind (stopTransmission_converges ticking) fun stopped => .pure _

end Convergence

end ArduinoK210.Sd
