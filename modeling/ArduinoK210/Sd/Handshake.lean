import ArduinoK210.Sd.Init
import ArduinoK210.Sd.Protocol

/-! The initialisation handshake, in terms of what the card answers, and how the
driver follows it. -/

namespace ArduinoK210.Sd

/-- A command is repeated until it is answered `wanted`, at most so many times. -/
def Within (line : Line) (wanted : UInt8) : Nat → Nat → Nat → Prop
  | 0, _, _ => False
  | attempts + 1, start, next => ∃ response middle, Responds line start response middle ∧
    (response = wanted ∧ next = middle ∨ response ≠ wanted ∧ Within line wanted attempts middle next)

/-- CMD55 and ACMD41 are repeated, each CMD55 is answered 0x01, and an ACMD41 is answered 0x00. -/
def Operates (line : Line) : Nat → Nat → Nat → Prop
  | 0, _, _ => False
  | rounds + 1, start, next => ∃ middle response last, Responds line start 0x01 middle ∧
    Responds line middle response last ∧ (response = 0 ∧ next = last ∨ response ≠ 0 ∧ Operates line rounds last next)

/-- Each CMD55 is answered 0x01, and no ACMD41 is answered 0x00. -/
def Ignores (line : Line) : Nat → Nat → Nat → Prop
  | 0, start, next => next = start
  | rounds + 1, start, next => ∃ middle response last, Responds line start 0x01 middle ∧
    Responds line middle response last ∧ response ≠ 0 ∧ Ignores line rounds last next

/-- The answer to a command that is followed by `size` bytes; without an answer no byte is read. -/
def Replies (line : Line) (size start : Nat) (response : UInt8) (data : List UInt8) (next : Nat) : Prop :=
  ∃ answer last, Polled line.card (fun byte => byte != dummyByte) (start + 7) cmdWaitRespTimeout answer last ∧
    response = answer.getD dummyByte ∧ data = (if answer = none then [] else Nor.slice line.card last size) ∧
    next = (if answer = none then last else last + size) + 1

section Answers

variable {line : Line}

theorem Within.unique {wanted : UInt8} {few many start first second : Nat} (one : Within line wanted few start first)
    (other : Within line wanted many start second) : first = second := by
  induction few generalizing many start with
  | zero => exact one.elim
  | succ few ih =>
    cases many with
    | zero => exact other.elim
    | succ many =>
      obtain ⟨response, middle, responds, outcome⟩ := one
      obtain ⟨response', middle', responds', outcome'⟩ := other
      obtain ⟨rfl, rfl⟩ := responds.unique responds'
      rcases outcome with ⟨good, rfl⟩ | ⟨bad, rest⟩
      · rcases outcome' with ⟨_, rfl⟩ | ⟨bad, _⟩
        · rfl
        · exact absurd good bad
      · rcases outcome' with ⟨good, _⟩ | ⟨_, rest'⟩
        · exact absurd good bad
        · exact ih rest rest'

theorem Within.later {wanted : UInt8} {attempts start next : Nat} (within : Within line wanted attempts start next) :
    Within line wanted (attempts + 1) start next := by
  induction attempts generalizing start with
  | zero => exact within.elim
  | succ attempts ih =>
    obtain ⟨response, middle, responds, outcome⟩ := within
    exact ⟨response, middle, responds, outcome.imp id fun ⟨bad, rest⟩ => ⟨bad, ih rest⟩⟩

theorem Operates.unique {rounds start first second : Nat} (one : Operates line rounds start first)
    (other : Operates line rounds start second) : first = second := by
  induction rounds generalizing start with
  | zero => exact one.elim
  | succ rounds ih =>
    obtain ⟨middle, response, last, app, responds, outcome⟩ := one
    obtain ⟨middle', response', last', app', responds', outcome'⟩ := other
    obtain ⟨_, rfl⟩ := app.unique app'
    obtain ⟨rfl, rfl⟩ := responds.unique responds'
    rcases outcome with ⟨good, rfl⟩ | ⟨bad, rest⟩
    · rcases outcome' with ⟨_, rfl⟩ | ⟨bad, _⟩
      · rfl
      · exact absurd good bad
    · rcases outcome' with ⟨good, _⟩ | ⟨_, rest'⟩
      · exact absurd good bad
      · exact ih rest rest'

private theorem Ignores.unique {rounds start first second : Nat} (one : Ignores line rounds start first)
    (other : Ignores line rounds start second) : first = second := by
  induction rounds generalizing start with
  | zero => exact one.trans other.symm
  | succ rounds ih =>
    obtain ⟨middle, response, last, app, responds, _, rest⟩ := one
    obtain ⟨middle', response', last', app', responds', _, rest'⟩ := other
    obtain ⟨_, rfl⟩ := app.unique app'
    obtain ⟨_, rfl⟩ := responds.unique responds'
    exact ih rest rest'

private theorem Ignores.not_operates {rounds start first second : Nat} (one : Ignores line rounds start first)
    (other : Operates line rounds start second) : False := by
  induction rounds generalizing start with
  | zero => exact other
  | succ rounds ih =>
    obtain ⟨middle, response, last, app, responds, bad, rest⟩ := one
    obtain ⟨middle', response', last', app', responds', outcome⟩ := other
    obtain ⟨_, rfl⟩ := app.unique app'
    obtain ⟨rfl, rfl⟩ := responds.unique responds'
    rcases outcome with ⟨good, _⟩ | ⟨_, rest'⟩
    · exact bad good
    · exact ih rest rest'

theorem Replies.unique {size start next last : Nat} {first second : UInt8} {data bytes : List UInt8}
    (one : Replies line size start first data next) (other : Replies line size start second bytes last) :
    first = second ∧ data = bytes ∧ next = last := by
  obtain ⟨answer, position, polled, rfl, rfl, rfl⟩ := one
  obtain ⟨answer', position', again, rfl, rfl, rfl⟩ := other
  obtain ⟨rfl, rfl⟩ := polled.unique again
  exact ⟨rfl, rfl, rfl⟩

end Answers

/-- CMD8 echoed the voltage: the card becomes ready and CMD58 gives its capacity class. -/
def NegotiatesV2 (line : Line) (start : Nat) (type : CardType) (next : Nat) : Prop :=
  ∃ ready ocr, Operates line operationLimit start ready ∧ Replies line 4 ready 0 ocr next ∧
    type = if ocr.getD 0 0 &&& 0x40 ≠ 0 then .sdv2hc else .sdv2

/-- An SD card becomes ready by ACMD41, an MMC only by CMD1. -/
def LegacyReady (line : Line) (start : Nat) (type : CardType) (ready : Nat) : Prop :=
  type = .sdv1 ∧ Operates line operationLimit start ready ∨
    type = .mmc ∧ ∃ ignored, Ignores line operationLimit start ignored ∧ Within line 0 operationLimit ignored ready

/-- CMD8 was illegal: the card becomes ready, and CMD59 and CMD16 are answered 0x00. -/
def NegotiatesLegacy (line : Line) (start : Nat) (type : CardType) (next : Nat) : Prop :=
  ∃ ready middle, LegacyReady line start type ready ∧ Responds line ready 0 middle ∧ Responds line middle 0 next

/-- From CMD8 on. An answer that does not come reads as 0xFF, which has the illegal flag. -/
def Negotiates (line : Line) (start : Nat) (type : CardType) (next : Nat) : Prop :=
  ∃ response echo checked, Replies line 4 start response echo checked ∧
    (response = r1IdleFlag ∧ (echo.getD 2 0 = 0x01 ∧ echo.getD 3 0 = 0xAA) ∧ NegotiatesV2 line checked type next ∨
      response ≠ r1IdleFlag ∧ response &&& r1IllegalCmdFlag ≠ 0 ∧ NegotiatesLegacy line (checked + 1) type next)

/-- A dummy byte, the command, its start token, 16 bytes, the checksum and a dummy byte. -/
def RegisterRead (line : Line) (cmd : UInt8) (start next : Nat) : Prop :=
  ∃ held data, Holds line cmd (start + 1) 0 held ∧ Token line (cmdWaitRespTimeout * 2) held data ∧ next = data + 16 + 2 + 1

/-- The whole handshake, with so many attempts at CMD0 after the 20 dummy bytes. -/
def Handshake (line : Line) (attempts start : Nat) (type : CardType) : Prop :=
  ∃ idle ready csd cid, Within line r1IdleFlag attempts (start + 20) idle ∧ Negotiates line idle type ready ∧
    RegisterRead line cmd9 ready csd ∧ RegisterRead line cmd10 csd cid

/-- The computation comes back, with whatever it has sent. -/
def Runs {α : Type} (computation : Io α) (before : Bus) (value : α) (after : Bus) : Prop :=
  ∃ sent issued, Does computation before value after sent issued

/-- The computation comes back without having sent the command. -/
def Spares {α : Type} (cmd : UInt8) (computation : Io α) (before : Bus) (value : α) (after : Bus) : Prop :=
  ∃ sent issued, Does computation before value after sent issued ∧ cmd ∉ issued

/-- The computation comes back and has sent the command. -/
def Sends {α : Type} (cmd : UInt8) (computation : Io α) (before : Bus) (value : α) (after : Bus) : Prop :=
  ∃ sent issued, Does computation before value after sent issued ∧ cmd ∈ issued

section Sequencing

variable {α β : Type} {cmd : UInt8} {first : Io α} {next : α → Io β} {before middle after : Bus} {value : α} {result : β}
variable {sent issued : List UInt8}

theorem Does.runs (does : Does first before value after sent issued) : Runs first before value after :=
  ⟨sent, issued, does⟩

theorem Does.spares (does : Does first before value after sent issued) (absent : cmd ∉ issued) :
    Spares cmd first before value after :=
  ⟨sent, issued, does, absent⟩

theorem Does.silent (does : Does first before value after sent []) (cmd : UInt8) : Spares cmd first before value after :=
  does.spares List.not_mem_nil

theorem Runs.pure (value : α) (bus : Bus) : Runs (Pure.pure value) bus value bus := (Does.pure value bus).runs

theorem Spares.pure (value : α) (bus : Bus) : Spares cmd (Pure.pure value) bus value bus :=
  (Does.pure value bus).silent cmd

theorem Runs.bind (one : Runs first before value middle) (two : Runs (next value) middle result after) :
    Runs (first >>= next) before result after := by
  obtain ⟨_, _, does⟩ := one
  obtain ⟨_, _, rest⟩ := two
  exact (does.bind rest).runs

theorem Spares.bind (one : Spares cmd first before value middle) (two : Spares cmd (next value) middle result after) :
    Spares cmd (first >>= next) before result after := by
  obtain ⟨_, _, does, absent⟩ := one
  obtain ⟨_, _, rest, none⟩ := two
  exact (does.bind rest).spares fun member => (List.mem_append.mp member).elim absent none

theorem Sends.bind (one : Sends cmd first before value middle) (two : Runs (next value) middle result after) :
    Sends cmd (first >>= next) before result after := by
  obtain ⟨_, _, does, member⟩ := one
  obtain ⟨_, _, rest⟩ := two
  exact ⟨_, _, does.bind rest, List.mem_append_left _ member⟩

private theorem Runs.bind_sends (one : Runs first before value middle) (two : Sends cmd (next value) middle result after) :
    Sends cmd (first >>= next) before result after := by
  obtain ⟨_, _, does⟩ := one
  obtain ⟨_, _, rest, member⟩ := two
  exact ⟨_, _, does.bind rest, List.mem_append_right _ member⟩

theorem Spares.runs (spares : Spares cmd first before value after) : Runs first before value after := by
  obtain ⟨_, _, does, _⟩ := spares
  exact does.runs

end Sequencing

private theorem sendCommandRecvResponse_does (line : Line) (cmd : UInt8) (arg : UInt32) (crc : UInt8) (size : Nat) (bus : Bus) :
    ∃ response data after, Does (sendCommandRecvResponse line cmd arg crc size) bus (response, data) after []
        [(cmd ||| 0x40) &&& 0x3F] ∧ Replies line size bus.pos response data after.pos := by
  obtain ⟨begun, begin, beginPos, _, selected⟩ := beginCommand_does line cmd arg crc bus
  obtain ⟨answer, polledBus, polls, _, still, polled⟩ :=
    poll_does line (fun byte => byte != dummyByte) cmdWaitRespTimeout selected
  rw [beginPos] at polled
  cases answer with
  | none =>
    obtain ⟨after, finishes, pos, _, _⟩ := finish_does line polledBus
    refine ⟨dummyByte, [], after, begin.bind (polls.bind (finishes.bind (.pure _ _))), none, polledBus.pos, polled, rfl, ?_, ?_⟩
    · rw [if_pos rfl]
    · rw [if_pos rfl, pos]
  | some byte =>
    have reads := read_does line size still
    obtain ⟨after, finishes, pos, _, _⟩ := finish_does line
      (polledBus.clock .data [] (Nor.slice line.card polledBus.pos size) size)
    refine ⟨byte, _, after, begin.bind (polls.bind (reads.bind (finishes.bind (.pure _ _)))), some byte, polledBus.pos,
      polled, rfl, ?_, ?_⟩
    · rw [if_neg (by simp)]
    · rw [if_neg (by simp), pos]
      rfl

private theorem clockDummies_does (line : Line) (count : Nat) (bus : Bus) :
    ∃ after, Does (clockDummies line count) bus () after [] [] ∧ after.pos = bus.pos + count := by
  induction count generalizing bus with
  | zero => exact ⟨bus, .pure _ _, rfl⟩
  | succ count ih =>
    obtain ⟨after, does, pos⟩ := ih (bus.clock .dummy [dummyByte] [line.card bus.pos] 1)
    refine ⟨after, (wrRdByte_dummy line bus).bind does, pos.trans ?_⟩
    simp only [Bus.clock]
    omega

/-- The loop decrements its counter before it looks at it: an idle answer on the last
attempt counts as none. -/
theorem resetLoop_does (line : Line) (timeout : Nat) (bus : Bus) :
    ∃ left after, Spares cmd8 (resetLoop line timeout) bus left after ∧
      (left ≠ 0 ∧ Within line r1IdleFlag (timeout - 1) bus.pos after.pos ∨
        left = 0 ∧ ∀ next, ¬Within line r1IdleFlag (timeout - 1) bus.pos next) := by
  induction timeout generalizing bus with
  | zero => exact ⟨0, bus, .pure _ _, .inr ⟨rfl, fun _ => id⟩⟩
  | succ timeout ih =>
    obtain ⟨response, middle, sends, _, _, responds⟩ := sendCommand_does line cmd0 0 0x95 bus
    have reset : Spares cmd8 (sendCommand line cmd0 0 0x95) bus response middle := sends.spares (by decide)
    cases timeout with
    | zero =>
      refine ⟨0, middle, reset.bind ?_, .inr ⟨rfl, fun _ => id⟩⟩
      rw [if_neg (by simp)]
      exact .pure _ _
    | succ timeout =>
      by_cases idle : response = r1IdleFlag
      · refine ⟨timeout + 1, middle, reset.bind ?_, .inl ⟨by simp, response, middle.pos, responds, .inl ⟨idle, rfl⟩⟩⟩
        rw [if_neg (by simp [idle])]
        exact .pure _ _
      · obtain ⟨left, after, does, outcome⟩ := ih middle
        refine ⟨left, after, reset.bind ?_, outcome.imp (fun ⟨reached, within⟩ => ⟨reached, ?_⟩)
          (fun ⟨spent, never⟩ => ⟨spent, fun next within => ?_⟩)⟩
        · rw [if_pos ⟨idle, Nat.succ_pos _⟩]
          exact does
        · exact ⟨response, middle.pos, responds, .inr ⟨idle, within⟩⟩
        · obtain ⟨response', middle', again, outcome'⟩ := within
          obtain ⟨rfl, rfl⟩ := responds.unique again
          rcases outcome' with ⟨good, _⟩ | ⟨_, rest⟩
          · exact idle good
          · exact never next rest

/-- How the loop over CMD55 and ACMD41 ends. -/
theorem operationLoop_does (line : Line) (arg : UInt32) (rounds : Nat) {response : UInt8} (before : response ≠ 0) (bus : Bus) :
    ∃ answer after, Runs (operationLoop line arg rounds response) bus answer after ∧
      (answer = some 0 ∧ Operates line rounds bus.pos after.pos ∨
        (∃ other, other ≠ 0 ∧ answer = some other) ∧ Ignores line rounds bus.pos after.pos ∨
        answer = none ∧ (∀ next, ¬Operates line rounds bus.pos next) ∧ ∀ next, ¬Ignores line rounds bus.pos next) := by
  induction rounds generalizing response bus with
  | zero => exact ⟨some response, bus, .pure _ _, .inr (.inl ⟨⟨response, before, rfl⟩, rfl⟩)⟩
  | succ rounds ih =>
    obtain ⟨app, middle, appSends, _, _, appResponds⟩ := sendCommand_does line cmd55 0 1 bus
    by_cases idle : app = 0x01
    · subst idle
      obtain ⟨ready, last, sends, _, _, responds⟩ := sendCommand_does line acmd41 arg 1 middle
      by_cases good : ready = 0
      · subst good
        refine ⟨some 0, last, appSends.runs.bind ?_, .inl ⟨rfl, middle.pos, 0, last.pos, appResponds, responds, .inl ⟨rfl, rfl⟩⟩⟩
        rw [if_neg (by simp)]
        apply sends.runs.bind
        rw [if_pos rfl]
        exact .pure _ _
      · obtain ⟨answer, after, does, outcome⟩ := ih good last
        refine ⟨answer, after, appSends.runs.bind ?_, ?_⟩
        · rw [if_neg (by simp)]
          apply sends.runs.bind
          rw [if_neg good]
          exact does
        · rcases outcome with ⟨zero, operates⟩ | ⟨bad, ignores⟩ | ⟨refused, never, nor⟩
          · exact .inl ⟨zero, middle.pos, ready, last.pos, appResponds, responds, .inr ⟨good, operates⟩⟩
          · exact .inr (.inl ⟨bad, middle.pos, ready, last.pos, appResponds, responds, good, ignores⟩)
          · refine .inr (.inr ⟨refused, fun next operates => ?_, fun next ignores => ?_⟩)
            · obtain ⟨middle', ready', last', appAgain, again, outcome⟩ := operates
              obtain ⟨_, rfl⟩ := appResponds.unique appAgain
              obtain ⟨rfl, rfl⟩ := responds.unique again
              rcases outcome with ⟨zero, _⟩ | ⟨_, rest⟩
              · exact good zero
              · exact never next rest
            · obtain ⟨middle', ready', last', appAgain, again, _, rest⟩ := ignores
              obtain ⟨_, rfl⟩ := appResponds.unique appAgain
              obtain ⟨_, rfl⟩ := responds.unique again
              exact nor next rest
    · refine ⟨none, middle, appSends.runs.bind ?_, .inr (.inr ⟨rfl, fun next operates => ?_, fun next ignores => ?_⟩)⟩
      · rw [if_pos idle]
        exact .pure _ _
      · obtain ⟨_, _, _, appAgain, _⟩ := operates
        exact idle (appResponds.unique appAgain).1
      · obtain ⟨_, _, _, appAgain, _⟩ := ignores
        exact idle (appResponds.unique appAgain).1

private theorem mmcLoop_does (line : Line) (attempts : Nat) {response : UInt8} (before : response ≠ 0) (bus : Bus) :
    ∃ answer after, Runs (mmcLoop line attempts response) bus answer after ∧
      (answer = 0 ∧ Within line 0 attempts bus.pos after.pos ∨
        answer ≠ 0 ∧ ∀ next, ¬Within line 0 attempts bus.pos next) := by
  induction attempts generalizing response bus with
  | zero => exact ⟨response, bus, .pure _ _, .inr ⟨before, fun _ => id⟩⟩
  | succ attempts ih =>
    obtain ⟨ready, middle, sends, _, _, responds⟩ := sendCommand_does line cmd1 0 1 bus
    by_cases good : ready = 0
    · refine ⟨ready, middle, sends.runs.bind ?_, .inl ⟨good, ready, middle.pos, responds, .inl ⟨good, rfl⟩⟩⟩
      rw [if_pos good]
      exact .pure _ _
    · obtain ⟨answer, after, does, outcome⟩ := ih good middle
      refine ⟨answer, after, sends.runs.bind ?_, outcome.imp (fun ⟨zero, within⟩ => ⟨zero, ?_⟩)
        (fun ⟨bad, never⟩ => ⟨bad, fun next within => ?_⟩)⟩
      · rw [if_neg good]
        exact does
      · exact ⟨ready, middle.pos, responds, .inr ⟨good, within⟩⟩
      · obtain ⟨ready', middle', again, outcome'⟩ := within
        obtain ⟨rfl, rfl⟩ := responds.unique again
        rcases outcome' with ⟨zero, _⟩ | ⟨_, rest⟩
        · exact good zero
        · exact never next rest

/-- How far a part of the handshake gets: it is done with the type it settles, or the
card has not done its part for any type. -/
def Settles (negotiates : CardType → Nat → Prop) (result : Result) (type : CardType) (stop : Nat) : Prop :=
  result = .ok ∧ negotiates type stop ∨ result ≠ .ok ∧ ∀ other next, ¬negotiates other next

private theorem initV2_does (line : Line) (type : CardType) {response : UInt8} (before : response ≠ 0) (bus : Bus) :
    ∃ result settled after, Runs (initV2 line type response) bus (result, settled) after ∧
      Settles (NegotiatesV2 line bus.pos) result settled after.pos := by
  obtain ⟨answer, operated, loops, outcome⟩ := operationLoop_does line 0x40000000 operationLimit before bus
  have timeout : Result.timeout ≠ .ok := by simp
  rcases outcome with ⟨rfl, operates⟩ | ⟨⟨other, bad, rfl⟩, ignores⟩ | ⟨rfl, never, _⟩
  · obtain ⟨response, ocr, after, sends, replies⟩ := sendCommandRecvResponse_does line cmd58 0 1 4 operated
    by_cases good : response = 0
    · subst good
      refine ⟨.ok, if ocr.getD 0 0 &&& 0x40 ≠ 0 then .sdv2hc else .sdv2, after, loops.bind ?_,
        .inl ⟨rfl, operated.pos, ocr, operates, replies, rfl⟩⟩
      exact sends.runs.bind (.pure _ _)
    · refine ⟨.timeout, type, after, loops.bind (sends.runs.bind ?_), .inr ⟨timeout, fun other next negotiates => ?_⟩⟩
      · rw [if_pos good]
        exact .pure _ _
      · obtain ⟨ready, ocr', operates', replies', _⟩ := negotiates
        cases operates.unique operates'
        exact good (replies.unique replies').1
  · refine ⟨.timeout, type, operated, loops.bind ?_, .inr ⟨timeout, fun other next negotiates => ?_⟩⟩
    · simp only [if_pos bad]
      exact .pure _ _
    · obtain ⟨_, _, operates, _⟩ := negotiates
      exact ignores.not_operates operates
  · refine ⟨.timeout, type, operated, loops.bind (.pure _ _), .inr ⟨timeout, fun other next negotiates => ?_⟩⟩
    obtain ⟨ready, _, operates, _⟩ := negotiates
    exact never ready operates

/-- CMD59 and CMD16 are both answered 0x00, or the legacy path fails. -/
theorem endLegacy_does (line : Line) (type : CardType) (bus : Bus) :
    ∃ result after, Runs (endLegacy line type) bus (result, type) after ∧
      (result = .ok ∧ (∃ middle, Responds line bus.pos 0 middle ∧ Responds line middle 0 after.pos) ∨
        result ≠ .ok ∧ ∀ middle next, Responds line bus.pos 0 middle → ¬Responds line middle 0 next) := by
  have timeout : Result.timeout ≠ .ok := by simp
  obtain ⟨first, middle, crc, _, _, crcResponds⟩ := sendCommand_does line cmd59 0 1 bus
  by_cases good : first = 0
  · subst good
    obtain ⟨second, after, size, _, _, sizeResponds⟩ := sendCommand_does line cmd16 512 1 middle
    by_cases fine : second = 0
    · subst fine
      refine ⟨.ok, after, crc.runs.bind ?_, .inl ⟨rfl, middle.pos, crcResponds, sizeResponds⟩⟩
      exact size.runs.bind (.pure _ _)
    · refine ⟨.timeout, after, crc.runs.bind (size.runs.bind ?_), .inr ⟨timeout, fun other next one two => ?_⟩⟩
      · rw [if_pos fine]
        exact .pure _ _
      · obtain ⟨_, rfl⟩ := crcResponds.unique one
        exact fine (sizeResponds.unique two).1
  · refine ⟨.timeout, middle, crc.runs.bind ?_, .inr ⟨timeout, fun other next one _ => ?_⟩⟩
    · rw [if_pos good]
      exact .pure _ _
    · exact good (crcResponds.unique one).1

theorem LegacyReady.unique {line : Line} {start first second : Nat} {type other : CardType}
    (one : LegacyReady line start type first) (two : LegacyReady line start other second) :
    type = other ∧ first = second := by
  rcases one with ⟨rfl, operates⟩ | ⟨rfl, ignored, ignores, within⟩
  · rcases two with ⟨rfl, operates'⟩ | ⟨_, _, ignores', _⟩
    · exact ⟨rfl, operates.unique operates'⟩
    · exact (ignores'.not_operates operates).elim
  · rcases two with ⟨_, operates'⟩ | ⟨rfl, ignored', ignores', within'⟩
    · exact (ignores.not_operates operates').elim
    · cases ignores.unique ignores'
      exact ⟨rfl, within.unique within'⟩

/-- A ready card of the legacy path: the last two commands decide. -/
theorem endLegacy_settles (line : Line) {start : Nat} {type : CardType} {bus : Bus}
    (ready : LegacyReady line start type bus.pos) :
    ∃ result after, Runs (endLegacy line type) bus (result, type) after ∧
      Settles (NegotiatesLegacy line start) result type after.pos := by
  obtain ⟨result, after, ends, ⟨success, middle, one, two⟩ | ⟨failed, never⟩⟩ := endLegacy_does line type bus
  · exact ⟨result, after, ends, .inl ⟨success, bus.pos, middle, ready, one, two⟩⟩
  · refine ⟨result, after, ends, .inr ⟨failed, fun other next negotiates => ?_⟩⟩
    obtain ⟨ready', middle, reaches, one, two⟩ := negotiates
    obtain ⟨_, rfl⟩ := ready.unique reaches
    exact never middle next one two

private theorem initLegacy_does (line : Line) {response : UInt8} (before : response ≠ 0) (bus : Bus) :
    ∃ result settled after, Runs (initLegacy line response) bus (result, settled) after ∧
      Settles (NegotiatesLegacy line (bus.pos + 1)) result settled after.pos := by
  obtain ⟨finishedBus, finishes, pos, _, _⟩ := finish_does line bus
  obtain ⟨answer, operated, loops, outcome⟩ := operationLoop_does line 0 operationLimit before finishedBus
  have timeout : Result.timeout ≠ .ok := by simp
  rw [pos] at outcome
  rcases outcome with ⟨rfl, operates⟩ | ⟨⟨other, bad, rfl⟩, ignores⟩ | ⟨rfl, never, nor⟩
  · have ready : LegacyReady line (bus.pos + 1) .sdv1 operated.pos := .inl ⟨rfl, operates⟩
    obtain ⟨result, after, ends, settles⟩ := endLegacy_settles line ready
    exact ⟨result, .sdv1, after, finishes.runs.bind (loops.bind ends), settles⟩
  · obtain ⟨answer, tried, tries, ⟨rfl, within⟩ | ⟨wrong, none⟩⟩ := mmcLoop_does line operationLimit bad operated
    · have ready : LegacyReady line (bus.pos + 1) .mmc tried.pos := .inr ⟨rfl, operated.pos, ignores, within⟩
      obtain ⟨result, after, ends, settles⟩ := endLegacy_settles line ready
      refine ⟨result, .mmc, after, finishes.runs.bind (loops.bind ?_), settles⟩
      simp only [if_pos bad]
      exact tries.bind ends
    · refine ⟨.timeout, .sdv1, tried, finishes.runs.bind (loops.bind ?_), .inr ⟨timeout, fun type next negotiates => ?_⟩⟩
      · simp only [if_pos bad]
        apply tries.bind
        rw [if_pos wrong]
        exact .pure _ _
      · obtain ⟨ready, _, ⟨_, operates⟩ | ⟨_, ignored, ignores', within⟩, _⟩ := negotiates
        · exact ignores.not_operates operates
        · cases ignores.unique ignores'
          exact none ready within
  · refine ⟨.timeout, .sdv1, operated, finishes.runs.bind (loops.bind (.pure _ _)),
      .inr ⟨timeout, fun type next negotiates => ?_⟩⟩
    obtain ⟨ready, _, ⟨_, operates⟩ | ⟨_, ignored, ignores, _⟩, _⟩ := negotiates
    · exact never ready operates
    · exact nor ignored ignores

/-- The answer to CMD8 says which way the card has to go. -/
theorem Replies.negotiates_iff {line : Line} {start checked next : Nat} {response : UInt8} {echo : List UInt8}
    {type : CardType} (replies : Replies line 4 start response echo checked) :
    Negotiates line start type next ↔
      response = r1IdleFlag ∧ (echo.getD 2 0 = 0x01 ∧ echo.getD 3 0 = 0xAA) ∧ NegotiatesV2 line checked type next ∨
      response ≠ r1IdleFlag ∧ response &&& r1IllegalCmdFlag ≠ 0 ∧ NegotiatesLegacy line (checked + 1) type next := by
  constructor
  · intro negotiates
    obtain ⟨response', echo', checked', again, outcome⟩ := negotiates
    obtain ⟨rfl, rfl, rfl⟩ := replies.unique again
    exact outcome
  · intro outcome
    exact ⟨response, echo, checked, replies, outcome⟩

/-- How the driver goes on from CMD8: only a wrong echo lets it return OK without the card's part. -/
theorem negotiate_does (line : Line) (type : CardType) (bus : Bus) :
    ∃ result settled after, Sends cmd8 (negotiate line type) bus (result, settled) after ∧
      (result = .ok ∧ Negotiates line bus.pos settled after.pos ∨ ∀ other next, ¬Negotiates line bus.pos other next) := by
  obtain ⟨response, echo, checked, asks, replies⟩ := sendCommandRecvResponse_does line cmd8 0x1AA 0x87 4 bus
  have sends : Sends cmd8 (sendCommandRecvResponse line cmd8 0x1AA 0x87 4) bus (response, echo) checked :=
    ⟨_, _, asks, by decide⟩
  by_cases idle : response = r1IdleFlag
  · by_cases echoed : echo.getD 2 0 = 0x01 ∧ echo.getD 3 0 = 0xAA
    · have nonzero : response ≠ 0 := by
        rw [idle]
        decide
      obtain ⟨result, settled, after, inits, settles⟩ := initV2_does line type nonzero checked
      refine ⟨result, settled, after, sends.bind ?_, ?_⟩
      · simp only [if_pos idle, if_pos echoed]
        exact inits
      · rcases settles with ⟨success, negotiates⟩ | ⟨_, never⟩
        · exact .inl ⟨success, replies.negotiates_iff.mpr (.inl ⟨idle, echoed, negotiates⟩)⟩
        · refine .inr fun other next negotiates => ?_
          rcases replies.negotiates_iff.mp negotiates with ⟨_, _, v2⟩ | ⟨wrong, _⟩
          · exact never other next v2
          · exact wrong idle
    · refine ⟨.ok, type, checked, sends.bind ?_, .inr fun other next negotiates => ?_⟩
      · simp only [if_pos idle, if_neg echoed]
        exact .pure _ _
      · rcases replies.negotiates_iff.mp negotiates with ⟨_, right, _⟩ | ⟨wrong, _⟩
        · exact echoed right
        · exact wrong idle
  · by_cases illegal : response &&& r1IllegalCmdFlag ≠ 0
    · have nonzero : response ≠ 0 := by
        intro zero
        subst zero
        exact illegal rfl
      obtain ⟨result, settled, after, inits, settles⟩ := initLegacy_does line nonzero checked
      refine ⟨result, settled, after, sends.bind ?_, ?_⟩
      · simp only [if_neg idle, if_pos illegal]
        exact inits
      · rcases settles with ⟨success, negotiates⟩ | ⟨_, never⟩
        · exact .inl ⟨success, replies.negotiates_iff.mpr (.inr ⟨idle, illegal, negotiates⟩)⟩
        · refine .inr fun other next negotiates => ?_
          rcases replies.negotiates_iff.mp negotiates with ⟨right, _⟩ | ⟨_, _, legacy⟩
          · exact idle right
          · exact never other next legacy
    · refine ⟨.error, type, checked, sends.bind ?_, .inr fun other next negotiates => ?_⟩
      · simp only [if_neg idle, if_neg illegal]
        exact .pure _ _
      · rcases replies.negotiates_iff.mp negotiates with ⟨right, _⟩ | ⟨_, flag, _⟩
        · exact idle right
        · exact illegal flag

/-- How `spisd_init` ends: an idle answer to CMD0 that comes too late, or not at all,
ends it before CMD8. -/
theorem spisdInit_does (line : Line) (type : CardType) (bus : Bus) :
    ∃ result settled after,
      (Spares cmd8 (spisdInit line type) bus (result, settled) after ∧ result ≠ .ok ∧
        ∀ next, ¬Within line r1IdleFlag 49 (bus.pos + 20) next) ∨
      (∃ idle, Sends cmd8 (spisdInit line type) bus (result, settled) after ∧
        Within line r1IdleFlag 49 (bus.pos + 20) idle ∧
        (result = .ok ∧ Negotiates line idle settled after.pos ∨ ∀ other next, ¬Negotiates line idle other next)) := by
  have release : Does relese bus () (bus.setSelected false) [] [] := ⟨rfl, .setSelected false bus⟩
  obtain ⟨clocked, dummies, pos⟩ := clockDummies_does line 20 (bus.setSelected false)
  have place : clocked.pos = bus.pos + 20 := pos
  obtain ⟨left, idle, resets, outcome⟩ := resetLoop_does line waitIdleTimeout clocked
  rw [place] at outcome
  have start : Spares cmd8 relese bus () (bus.setSelected false) := release.silent cmd8
  have clocks : Spares cmd8 (clockDummies line 20) (bus.setSelected false) () clocked := dummies.silent cmd8
  rcases outcome with ⟨some, within⟩ | ⟨rfl, never⟩
  · obtain ⟨result, settled, after, sends, outcome⟩ := negotiate_does line type idle
    refine ⟨result, settled, after, .inr ⟨idle.pos, ?_, within, outcome⟩⟩
    refine start.runs.bind_sends (clocks.runs.bind_sends (resets.runs.bind_sends ?_))
    rw [if_neg some]
    exact sends
  · refine ⟨.timeout, type, idle, .inl ⟨?_, by simp, never⟩⟩
    exact start.bind (clocks.bind (resets.bind (.pure _ _)))

end ArduinoK210.Sd
