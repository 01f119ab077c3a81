import ArduinoK210.Sd.Driver

/-! What the card has to clock out for each step of the driver: one specification
for each helper, in terms of the card's bytes and the tick readings. -/

namespace ArduinoK210.Sd

/-- The first byte from `start` on that meets `stop` is the one at distance `k`. -/
structure Hits (card : Nat → UInt8) (stop : UInt8 → Bool) (start limit k : Nat) : Prop where
  inside : k < limit
  here : stop (card (start + k)) = true
  before : ∀ i < k, stop (card (start + i)) = false

def Misses (card : Nat → UInt8) (stop : UInt8 → Bool) (start limit : Nat) : Prop :=
  ∀ i < limit, stop (card (start + i)) = false

/-- A bounded wait for a byte that meets `stop`: its answer, and where it ends. -/
def Polled (card : Nat → UInt8) (stop : UInt8 → Bool) (start limit : Nat) (answer : Option UInt8) (next : Nat) : Prop :=
  (∃ k, Hits card stop start limit k ∧ answer = some (card (start + k)) ∧ next = start + k + 1) ∨
    Misses card stop start limit ∧ answer = none ∧ next = start + limit

private theorem Hits.unique {card : Nat → UInt8} {stop : UInt8 → Bool} {start limit first second : Nat}
    (one : Hits card stop start limit first) (other : Hits card stop start limit second) : first = second := by
  rcases Nat.lt_trichotomy first second with less | same | more
  · have quiet := other.before first less
    rw [one.here] at quiet
    cases quiet
  · exact same
  · have quiet := one.before second more
    rw [other.here] at quiet
    cases quiet

private theorem Hits.not_misses {card : Nat → UInt8} {stop : UInt8 → Bool} {start limit k : Nat}
    (hits : Hits card stop start limit k) (misses : Misses card stop start limit) : False :=
  absurd (hits.here.symm.trans (misses k hits.inside)) (by simp)

theorem Polled.unique {card : Nat → UInt8} {stop : UInt8 → Bool} {start limit next last : Nat} {first second : Option UInt8}
    (one : Polled card stop start limit first next) (other : Polled card stop start limit second last) :
    first = second ∧ next = last := by
  rcases one with ⟨k, hits, rfl, rfl⟩ | ⟨misses, rfl, rfl⟩
  · rcases other with ⟨j, again, rfl, rfl⟩ | ⟨misses, rfl, rfl⟩
    · cases hits.unique again
      exact ⟨rfl, rfl⟩
    · exact (hits.not_misses misses).elim
  · rcases other with ⟨j, hits, rfl, rfl⟩ | ⟨_, rfl, rfl⟩
    · exact (hits.not_misses misses).elim
    · exact ⟨rfl, rfl⟩

theorem Polled.skip {card : Nat → UInt8} {stop : UInt8 → Bool} {start limit next : Nat} {answer : Option UInt8}
    (quiet : stop (card start) = false) (rest : Polled card stop (start + 1) limit answer next) :
    Polled card stop start (limit + 1) answer next := by
  rcases rest with ⟨k, hits, rfl, rfl⟩ | ⟨misses, rfl, rfl⟩
  · have shift : start + 1 + k = start + (k + 1) := by omega
    refine .inl ⟨k + 1, ⟨Nat.succ_lt_succ hits.inside, shift ▸ hits.here, fun i below => ?_⟩, by rw [shift], by omega⟩
    cases i with
    | zero => exact quiet
    | succ i =>
      have earlier := hits.before i (by omega)
      rwa [Nat.add_assoc, Nat.add_comm 1 i] at earlier
  · refine .inr ⟨fun i below => ?_, rfl, by omega⟩
    cases i with
    | zero => exact quiet
    | succ i =>
      have earlier := misses i (by omega)
      rwa [Nat.add_assoc, Nat.add_comm 1 i] at earlier

theorem poll_does (line : Line) (stop : UInt8 → Bool) (limit : Nat) {bus : Bus} (selected : bus.selected = true) :
    ∃ answer after, Does (poll line stop limit) bus answer after [] [] ∧ after.ticks = bus.ticks ∧
      after.selected = true ∧ Polled line.card stop bus.pos limit answer after.pos := by
  induction limit generalizing bus with
  | zero => exact ⟨none, bus, .pure none bus, rfl, selected, .inr ⟨by simp [Misses], rfl, rfl⟩⟩
  | succ limit ih =>
    have first := wrRdByte_response line selected
    have kept : (bus.clock .response [dummyByte] [line.card bus.pos] 1).selected = true := selected
    by_cases here : stop (line.card bus.pos) = true
    · refine ⟨some (line.card bus.pos), bus.clock .response [dummyByte] [line.card bus.pos] 1, first.bind ?_, rfl, selected,
        .inl ⟨0, ⟨Nat.succ_pos _, here, by simp⟩, rfl, rfl⟩⟩
      rw [if_pos here]
      exact .pure _ _
    · obtain ⟨answer, after, does, ticks, still, polled⟩ := ih kept
      refine ⟨answer, after, first.bind ?_, ticks, still, polled.skip (Bool.not_eq_true _ ▸ here)⟩
      rw [if_neg here]
      exact does

/-- The answer to a command sent from position `start` on: a dummy byte and six
packet bytes, then at most 5000 polls for a byte other than 0xFF, then a dummy byte. -/
def Responds (line : Line) (start : Nat) (response : UInt8) (next : Nat) : Prop :=
  ∃ answer last, Polled line.card (fun byte => byte != dummyByte) (start + 7) cmdWaitRespTimeout answer last ∧
    response = answer.getD dummyByte ∧ next = last + 1

theorem Responds.unique {line : Line} {start next last : Nat} {first second : UInt8} (one : Responds line start first next)
    (other : Responds line start second last) : first = second ∧ next = last := by
  obtain ⟨answer, position, polled, rfl, rfl⟩ := one
  obtain ⟨answer', position', again, rfl, rfl⟩ := other
  obtain ⟨rfl, rfl⟩ := polled.unique again
  exact ⟨rfl, rfl⟩

theorem beginCommand_does (line : Line) (cmd : UInt8) (arg : UInt32) (crc : UInt8) (bus : Bus) :
    ∃ after, Does (beginCommand line cmd arg crc) bus () after [] [(cmd ||| 0x40) &&& 0x3F] ∧
      after.pos = bus.pos + 7 ∧ after.ticks = bus.ticks ∧ after.selected = true := by
  refine ⟨_, (wrRdByte_dummy line bus).bind ((select_does _).bind ⟨rfl, ?_⟩), rfl, rfl, rfl⟩
  exact Logs.packet _ _ _ rfl

theorem sendCommand_does (line : Line) (cmd : UInt8) (arg : UInt32) (crc : UInt8) (bus : Bus) :
    ∃ response after, Does (sendCommand line cmd arg crc) bus response after [] [(cmd ||| 0x40) &&& 0x3F] ∧
      after.ticks = bus.ticks ∧ Finished after ∧ Responds line bus.pos response after.pos := by
  obtain ⟨begun, begin, beginPos, beginTicks, selected⟩ := beginCommand_does line cmd arg crc bus
  obtain ⟨answer, polledBus, polls, pollTicks, _, polled⟩ :=
    poll_does line (fun byte => byte != dummyByte) cmdWaitRespTimeout selected
  obtain ⟨after, finishes, pos, ticks, finished⟩ := finish_does line polledBus
  refine ⟨answer.getD dummyByte, after, begin.bind (polls.bind (finishes.bind (.pure _ _))),
    ticks.trans (pollTicks.trans beginTicks), finished, answer, polledBus.pos, ?_, rfl, pos⟩
  rw [← beginPos]
  exact polled

/-- The answer to a command that keeps the card selected; CMD12 has a stuff byte first. -/
def Holds (line : Line) (cmd : UInt8) (start : Nat) (response : UInt8) (next : Nat) : Prop :=
  ∃ answer, Polled line.card (fun byte => byte &&& 0x80 == 0) (start + if cmd = cmd12 then 8 else 7) cmdWaitRespTimeout
    answer next ∧ response = answer.getD dummyByte

theorem Holds.unique {line : Line} {cmd : UInt8} {start next last : Nat} {first second : UInt8}
    (one : Holds line cmd start first next) (other : Holds line cmd start second last) : first = second ∧ next = last := by
  obtain ⟨answer, polled, rfl⟩ := one
  obtain ⟨answer', again, rfl⟩ := other
  obtain ⟨rfl, rfl⟩ := polled.unique again
  exact ⟨rfl, rfl⟩

private theorem holdResponse_does (line : Line) {bus : Bus} (selected : bus.selected = true) :
    ∃ answer after, Does (holdResponse line) bus (answer.getD dummyByte) after [] [] ∧ after.ticks = bus.ticks ∧
      after.selected = true ∧
      Polled line.card (fun byte => byte &&& 0x80 == 0) bus.pos cmdWaitRespTimeout answer after.pos := by
  obtain ⟨answer, after, polls, ticks, still, polled⟩ :=
    poll_does line (fun byte => byte &&& 0x80 == 0) cmdWaitRespTimeout selected
  exact ⟨answer, after, polls.bind (.pure _ _), ticks, still, polled⟩

theorem sendCommandHold_does (line : Line) (cmd : UInt8) (arg : UInt32) (crc : UInt8) (bus : Bus) :
    ∃ response after, Does (sendCommandHold line cmd arg crc) bus response after [] [(cmd ||| 0x40) &&& 0x3F] ∧
      after.ticks = bus.ticks ∧ after.selected = true ∧ Holds line cmd bus.pos response after.pos := by
  obtain ⟨begun, begin, beginPos, beginTicks, selected⟩ := beginCommand_does line cmd arg crc bus
  by_cases stop : cmd = cmd12
  · have stuff := wrRdByte_response line selected
    have kept : (begun.clock .response [dummyByte] [line.card begun.pos] 1).selected = true := selected
    obtain ⟨answer, after, answers, ticks, still, polled⟩ := holdResponse_does line kept
    refine ⟨answer.getD dummyByte, after, begin.bind ?_, ticks.trans beginTicks, still, answer, ?_, rfl⟩
    · rw [if_pos stop]
      exact stuff.bind answers
    · rw [if_pos stop]
      have start : (begun.clock .response [dummyByte] [line.card begun.pos] 1).pos = bus.pos + 8 := by
        rw [Bus.clock, beginPos]
      rw [← start]
      exact polled
  · obtain ⟨answer, after, answers, ticks, still, polled⟩ := holdResponse_does line selected
    refine ⟨answer.getD dummyByte, after, begin.bind ?_, ticks.trans beginTicks, still, answer, ?_, rfl⟩
    · rw [if_neg stop]
      exact answers
    · rw [if_neg stop, ← beginPos]
      exact polled

/-- The card shows 0xFF after `k` busy bytes, each within the timeout from `began` on. -/
structure ReadyAfter (line : Line) (began : UInt32) (start ticks k : Nat) : Prop where
  here : line.card (start + k) = dummyByte
  busy : ∀ i < k, line.card (start + i) ≠ dummyByte
  inTime : ∀ i < k, line.tick (ticks + i) - began < line.timeout

/-- The card is busy for `k + 1` bytes, and the timeout has passed at the last one. -/
structure BusyPast (line : Line) (began : UInt32) (start ticks k : Nat) : Prop where
  busy : ∀ i ≤ k, line.card (start + i) ≠ dummyByte
  inTime : ∀ i < k, line.tick (ticks + i) - began < line.timeout
  expired : ¬line.tick (ticks + k) - began < line.timeout

/-- How a busy wait ends, after a number of polls that `patience` admits. -/
def Waited (line : Line) (patience : Nat → Prop) (began : UInt32) (start ticks : Nat) (result : Result)
    (next last : Nat) : Prop :=
  (∃ k, patience k ∧ ReadyAfter line began start ticks k ∧ result = .ok ∧ next = start + k + 1 ∧ last = ticks + k) ∨
    ∃ k, patience k ∧ BusyPast line began start ticks k ∧ result = .timeout ∧ next = start + k + 1 ∧ last = ticks + k + 1

section Waiting

variable {line : Line} {patience : Nat → Prop} {began : UInt32} {start ticks first second : Nat}

private theorem ReadyAfter.unique (one : ReadyAfter line began start ticks first) (other : ReadyAfter line began start ticks second) :
    first = second := by
  rcases Nat.lt_trichotomy first second with less | same | more
  · exact absurd one.here (other.busy first less)
  · exact same
  · exact absurd other.here (one.busy second more)

private theorem BusyPast.unique (one : BusyPast line began start ticks first) (other : BusyPast line began start ticks second) :
    first = second := by
  rcases Nat.lt_trichotomy first second with less | same | more
  · exact absurd (other.inTime first less) one.expired
  · exact same
  · exact absurd (one.inTime second more) other.expired

private theorem ReadyAfter.not_busy (ready : ReadyAfter line began start ticks first)
    (busy : BusyPast line began start ticks second) : False := by
  by_cases early : first ≤ second
  · exact busy.busy first early ready.here
  · exact busy.expired (ready.inTime second (Nat.lt_of_not_le early))

theorem Waited.unique {other : Nat → Prop} {result result' : Result} {next last next' last' : Nat}
    (one : Waited line patience began start ticks result next last)
    (two : Waited line other began start ticks result' next' last') :
    result = result' ∧ next = next' ∧ last = last' := by
  rcases one with ⟨k, _, ready, rfl, rfl, rfl⟩ | ⟨k, _, busy, rfl, rfl, rfl⟩
  · rcases two with ⟨j, _, again, rfl, rfl, rfl⟩ | ⟨j, _, busy, _⟩
    · cases ready.unique again
      exact ⟨rfl, rfl, rfl⟩
    · exact (ready.not_busy busy).elim
  · rcases two with ⟨j, _, ready, _⟩ | ⟨j, _, again, rfl, rfl, rfl⟩
    · exact (ready.not_busy busy).elim
    · cases busy.unique again
      exact ⟨rfl, rfl, rfl⟩

theorem Waited.mono {other : Nat → Prop} {result : Result} {next last : Nat}
    (waited : Waited line patience began start ticks result next last) (wider : ∀ k, patience k → other k) :
    Waited line other began start ticks result next last := by
  rcases waited with ⟨k, allowed, rest⟩ | ⟨k, allowed, rest⟩
  · exact .inl ⟨k, wider k allowed, rest⟩
  · exact .inr ⟨k, wider k allowed, rest⟩

theorem Waited.later {fuel : Nat} {result : Result} {next last : Nat} (busy : line.card start ≠ dummyByte)
    (inTime : line.tick ticks - began < line.timeout)
    (rest : Waited line (fun k => k < fuel) began (start + 1) (ticks + 1) result next last) :
    Waited line (fun k => k < fuel + 1) began start ticks result next last := by
  have shift : ∀ base i : Nat, base + 1 + i = base + (i + 1) := by omega
  rcases rest with ⟨k, allowed, ready, rfl, rfl, rfl⟩ | ⟨k, allowed, past, rfl, rfl, rfl⟩
  · refine .inl ⟨k + 1, Nat.succ_lt_succ allowed, ⟨shift start k ▸ ready.here, ?_, ?_⟩, rfl, by omega, by omega⟩
    · intro i below
      cases i with
      | zero => exact busy
      | succ i => exact shift start i ▸ ready.busy i (by omega)
    · intro i below
      cases i with
      | zero => exact inTime
      | succ i => exact shift ticks i ▸ ready.inTime i (by omega)
  · refine .inr ⟨k + 1, Nat.succ_lt_succ allowed, ⟨?_, ?_, shift ticks k ▸ past.expired⟩, rfl, by omega, by omega⟩
    · intro i below
      cases i with
      | zero => exact busy
      | succ i => exact shift start i ▸ past.busy i (by omega)
    · intro i below
      cases i with
      | zero => exact inTime
      | succ i => exact shift ticks i ▸ past.inTime i (by omega)

/-- For `fuel` polls the card is busy and the time is not over. -/
structure Pending (line : Line) (began : UInt32) (start ticks fuel : Nat) : Prop where
  busy : ∀ i < fuel, line.card (start + i) ≠ dummyByte
  inTime : ∀ i < fuel, line.tick (ticks + i) - began < line.timeout

theorem Pending.not_waited {fuel : Nat} {result : Result} {next last : Nat}
    (pending : Pending line began start ticks fuel)
    (waited : Waited line (fun k => k < fuel) began start ticks result next last) : False := by
  rcases waited with ⟨k, allowed, ready, _⟩ | ⟨k, allowed, past, _⟩
  · exact pending.busy k allowed ready.here
  · exact past.expired (pending.inTime k allowed)

private theorem Pending.later {fuel : Nat} (busy : line.card start ≠ dummyByte) (inTime : line.tick ticks - began < line.timeout)
    (rest : Pending line began (start + 1) (ticks + 1) fuel) : Pending line began start ticks (fuel + 1) := by
  have shift : ∀ base i : Nat, base + 1 + i = base + (i + 1) := by omega
  refine ⟨fun i below => ?_, fun i below => ?_⟩
  · cases i with
    | zero => exact busy
    | succ i => exact shift start i ▸ rest.busy i (by omega)
  · cases i with
    | zero => exact inTime
    | succ i => exact shift ticks i ▸ rest.inTime i (by omega)

end Waiting

private theorem wrRdByte_busy (line : Line) {bus : Bus} (selected : bus.selected = true) :
    Does (wrRdByte line .busy dummyByte) bus (line.card bus.pos) (bus.clock .busy [dummyByte] [line.card bus.pos] 1) [] [] :=
  ⟨rfl, .poll (.inr rfl) _ selected⟩

private theorem rtTickGet_does (line : Line) (bus : Bus) :
    Does (rtTickGet line) bus (line.tick bus.ticks) bus.readTick [] [] :=
  ⟨rfl, [], (List.append_nil _).symm, rfl, rfl, by simp⟩

private theorem waitLoop_does (line : Line) (began : UInt32) (fuel : Nat) {bus : Bus} (selected : bus.selected = true) :
    ∃ after, after.selected = true ∧
      ((∃ result, Does (waitLoop line began fuel) bus result after [] [] ∧
        Waited line (fun k => k < fuel) began bus.pos bus.ticks result after.pos after.ticks) ∨
      Hangs (waitLoop line began fuel) bus after [] [] ∧ Pending line began bus.pos bus.ticks fuel) := by
  induction fuel generalizing bus with
  | zero => exact ⟨bus, selected, .inr ⟨⟨rfl, .refl bus⟩, ⟨by simp, by simp⟩⟩⟩
  | succ fuel ih =>
    have first := wrRdByte_busy line selected
    by_cases here : line.card bus.pos = dummyByte
    · refine ⟨bus.clock .busy [dummyByte] [line.card bus.pos] 1, selected, .inl ⟨.ok, first.bind ?_, ?_⟩⟩
      · rw [if_pos here]
        exact .pure _ _
      · exact .inl ⟨0, Nat.succ_pos _, ⟨here, by simp, by simp⟩, rfl, rfl, rfl⟩
    · have reading : Does (rtTickGet line) (bus.clock .busy [dummyByte] [line.card bus.pos] 1) (line.tick bus.ticks)
          (bus.clock .busy [dummyByte] [line.card bus.pos] 1).readTick [] [] := rtTickGet_does line _
      by_cases inTime : line.tick bus.ticks - began < line.timeout
      · have kept : (bus.clock .busy [dummyByte] [line.card bus.pos] 1).readTick.selected = true := selected
        obtain ⟨after, still, outcome⟩ := ih kept
        refine ⟨after, still, outcome.imp (fun ⟨result, does, waited⟩ => ⟨result, ?_, waited.later here inTime⟩)
          (fun ⟨hangs, pending⟩ => ⟨?_, pending.later here inTime⟩)⟩
        · apply first.bind
          rw [if_neg here]
          apply reading.bind
          rw [if_pos inTime]
          exact does
        · apply first.bind_hangs
          rw [if_neg here]
          apply reading.bind_hangs
          rw [if_pos inTime]
          exact hangs
      · refine ⟨(bus.clock .busy [dummyByte] [line.card bus.pos] 1).readTick, selected,
          .inl ⟨.timeout, first.bind ?_, ?_⟩⟩
        · rw [if_neg here]
          apply reading.bind
          rw [if_neg inTime]
          exact .pure _ _
        · refine .inr ⟨0, Nat.succ_pos _, ⟨fun i below => ?_, by simp, inTime⟩, rfl, rfl, rfl⟩
          cases Nat.le_zero.mp below
          exact here

theorem waitReady_does (line : Line) (fuel : Nat) {bus : Bus} (selected : bus.selected = true) :
    ∃ after, after.selected = true ∧
      ((∃ result, Does (waitReady line fuel) bus result after [] [] ∧
        Waited line (fun k => k < fuel) (line.tick bus.ticks) bus.pos (bus.ticks + 1) result after.pos after.ticks) ∨
      Hangs (waitReady line fuel) bus after [] [] ∧
        Pending line (line.tick bus.ticks) bus.pos (bus.ticks + 1) fuel) := by
  have reading := rtTickGet_does line bus
  have kept : bus.readTick.selected = true := selected
  obtain ⟨after, still, outcome⟩ := waitLoop_does line (line.tick bus.ticks) fuel kept
  refine ⟨after, still, outcome.imp (fun ⟨result, does, waited⟩ => ⟨result, reading.bind does, waited⟩)
    (fun ⟨hangs, pending⟩ => ⟨reading.bind_hangs hangs, pending⟩)⟩

/-- CMD12 is answered 0x00 and the card is ready in time. -/
def Stopped (line : Line) (patience : Nat → Prop) (start ticks : Nat) : Prop :=
  ∃ middle next last, Holds line cmd12 start 0 middle ∧
    Waited line patience (line.tick ticks) middle (ticks + 1) .ok next last

/-- The transfer is stopped with one CMD12, and the call comes back unless the card
and the tick counter both stand still. -/
theorem stopTransmission_does (line : Line) (fuel : Nat) (bus : Bus) :
    ∃ after,
      (∃ result, Does (stopTransmission line fuel) bus result after [] [cmd12] ∧ Finished after ∧
        (result = .ok ↔ Stopped line (fun k => k < fuel) bus.pos bus.ticks)) ∨
      Hangs (stopTransmission line fuel) bus after [] [cmd12] ∧
        ∃ middle, Holds line cmd12 bus.pos 0 middle ∧ Pending line (line.tick bus.ticks) middle (bus.ticks + 1) fuel := by
  obtain ⟨response, held, sends, sendTicks, selected, holds⟩ := sendCommandHold_does line cmd12 0 1 bus
  by_cases good : response = 0
  · subst good
    obtain ⟨waitedBus, _, outcome⟩ := waitReady_does line fuel selected
    rw [sendTicks] at outcome
    rcases outcome with ⟨result, waits, waited⟩ | ⟨hangs, pending⟩
    · obtain ⟨after, finishes, _, _, finished⟩ := finish_does line waitedBus
      refine ⟨after, .inl ⟨result, sends.bind ?_, finished, ?_⟩⟩
      · rw [if_pos rfl]
        exact waits.bind (finishes.bind (.pure _ _))
      · constructor
        · intro success
          subst success
          exact ⟨held.pos, _, _, holds, waited⟩
        · intro stopped
          obtain ⟨middle, next, last, again, other⟩ := stopped
          obtain ⟨_, rfl⟩ := holds.unique again
          exact (waited.unique other).1
    · refine ⟨waitedBus, .inr ⟨sends.bind_hangs ?_, held.pos, holds, pending⟩⟩
      rw [if_pos rfl]
      exact hangs.bind
  · obtain ⟨after, finishes, _, _, finished⟩ := finish_does line held
    refine ⟨after, .inl ⟨if response = dummyByte then .timeout else .error, sends.bind ?_, finished, ?_⟩⟩
    · rw [if_neg good]
      exact finishes.bind (.pure _ _)
    · constructor
      · intro success
        split at success <;> cases success
      · intro stopped
        obtain ⟨middle, next, last, again, _⟩ := stopped
        exact absurd (holds.unique again).1 good

/-- A start token within the limit; the bytes after it begin at `data`. -/
def Token (line : Line) (limit start data : Nat) : Prop :=
  ∃ k, Hits line.card (fun byte => byte == 0xFE) start limit k ∧ data = start + k + 1

theorem Token.unique {line : Line} {limit start first second : Nat} (one : Token line limit start first)
    (other : Token line limit start second) : first = second := by
  obtain ⟨k, hits, rfl⟩ := one
  obtain ⟨j, again, rfl⟩ := other
  rw [hits.unique again]

theorem readFramed_does (line : Line) (limit len : Nat) {bus : Bus} (selected : bus.selected = true) :
    ∃ after, after.selected = true ∧ after.ticks = bus.ticks ∧
      ((∃ data, Token line limit bus.pos data ∧ after.pos = data + len + 2 ∧
        Does (readFramed line limit len) bus (some (Nor.slice line.card data len)) after [] []) ∨
      (∀ data, ¬Token line limit bus.pos data) ∧ Does (readFramed line limit len) bus none after [] []) := by
  obtain ⟨answer, polledBus, polls, ticks, still, polled⟩ := poll_does line (fun byte => byte == 0xFE) limit selected
  rcases polled with ⟨k, hits, rfl, pos⟩ | ⟨misses, rfl, pos⟩
  · have data := read_does line len still
    refine ⟨_, ?_, ?_, .inl ⟨polledBus.pos, ⟨k, hits, pos⟩, ?_, polls.bind (data.bind ((wrRdByte_response line ?_).bind
      ((wrRdByte_response line ?_).bind (.pure _ _))))⟩⟩
    · exact still
    · exact ticks
    · rfl
    · exact still
    · exact still
  · refine ⟨polledBus, still, ticks, .inr ⟨fun data token => ?_, polls.bind (.pure _ _)⟩⟩
    obtain ⟨k, hits, _⟩ := token
    exact hits.not_misses misses

end ArduinoK210.Sd
