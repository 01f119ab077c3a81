import ArduinoK210.Sd.Handshake
import Mathlib.Data.List.Induction

/-! `disk_initialize` over any history of calls: when its status and `disk_status` tell
the truth about the card. -/

namespace ArduinoK210.Sd

section Uniqueness

variable {line : Line} {start next last : Nat} {type other : CardType}

private theorem NegotiatesV2.unique (one : NegotiatesV2 line start type next) (two : NegotiatesV2 line start other last) :
    type = other ∧ next = last := by
  obtain ⟨ready, ocr, operates, replies, rfl⟩ := one
  obtain ⟨ready', ocr', operates', replies', rfl⟩ := two
  cases operates.unique operates'
  obtain ⟨_, rfl, rfl⟩ := replies.unique replies'
  exact ⟨rfl, rfl⟩

private theorem NegotiatesLegacy.unique (one : NegotiatesLegacy line start type next)
    (two : NegotiatesLegacy line start other last) : type = other ∧ next = last := by
  obtain ⟨ready, middle, reaches, crc, size⟩ := one
  obtain ⟨ready', middle', reaches', crc', size'⟩ := two
  obtain ⟨rfl, rfl⟩ := reaches.unique reaches'
  obtain ⟨_, rfl⟩ := crc.unique crc'
  exact ⟨rfl, (size.unique size').2⟩

private theorem Negotiates.unique (one : Negotiates line start type next) (two : Negotiates line start other last) :
    type = other ∧ next = last := by
  obtain ⟨response, echo, checked, replies, outcome⟩ := one
  rcases outcome with ⟨idle, _, v2⟩ | ⟨busy, _, legacy⟩
  · rcases replies.negotiates_iff.mp two with ⟨_, _, v2'⟩ | ⟨wrong, _⟩
    · exact v2.unique v2'
    · exact absurd idle wrong
  · rcases replies.negotiates_iff.mp two with ⟨right, _⟩ | ⟨_, _, legacy'⟩
    · exact absurd right busy
    · exact legacy.unique legacy'

private theorem RegisterRead.unique {cmd : UInt8} (one : RegisterRead line cmd start next) (two : RegisterRead line cmd start last) :
    next = last := by
  obtain ⟨held, data, holds, token, rfl⟩ := one
  obtain ⟨held', data', holds', token', rfl⟩ := two
  obtain ⟨_, rfl⟩ := holds.unique holds'
  rw [token.unique token']

end Uniqueness

private theorem readCid_does (line : Line) (info : CardInfo) (bus : Bus) :
    ∃ response stored after, Spares cmd8 (readCid line info) bus (response, stored) after ∧
      stored.cardType = info.cardType ∧
      (response = 0 ∧ RegisterRead line cmd10 bus.pos after.pos ∨
        response ≠ 0 ∧ ∀ next, ¬RegisterRead line cmd10 bus.pos next) := by
  have dummy := (wrRdByte_dummy line bus).silent cmd8
  obtain ⟨response, held, sends, _, selected, holds⟩ :=
    sendCommandHold_does line cmd10 0 1 (bus.clock .dummy [dummyByte] [line.card bus.pos] 1)
  have asks : Spares cmd8 (sendCommandHold line cmd10 0 1) (bus.clock .dummy [dummyByte] [line.card bus.pos] 1) response
      held := sends.spares (by decide)
  by_cases good : response = 0
  · subst good
    obtain ⟨readBus, _, _, ⟨data, token, place, reads⟩ | ⟨missing, reads⟩⟩ :=
      readFramed_does line (cmdWaitRespTimeout * 2) 16 selected
    · obtain ⟨after, finishes, pos, _, _⟩ := finish_does line readBus
      have gets := reads.silent cmd8
      have ends := finishes.silent cmd8
      refine ⟨0, { info with cid := Nor.slice line.card data 16 }, after, dummy.bind (asks.bind (gets.bind (ends.bind (.pure _ _)))), rfl,
        .inl ⟨rfl, held.pos, data, holds, token, ?_⟩⟩
      rw [pos, place]
    · obtain ⟨after, finishes, _, _, _⟩ := finish_does line readBus
      have gets := reads.silent cmd8
      have ends := finishes.silent cmd8
      refine ⟨2, info, after, dummy.bind (asks.bind (gets.bind (ends.bind (.pure _ _)))), rfl, .inr ⟨by decide, fun next register => ?_⟩⟩
      obtain ⟨held', data, holds', token, _⟩ := register
      obtain ⟨_, rfl⟩ := holds.unique holds'
      exact missing data token
  · obtain ⟨after, finishes, _, _, _⟩ := finish_does line held
    refine ⟨response, info, after, dummy.bind (asks.bind ?_), rfl, .inr ⟨good, fun next register => ?_⟩⟩
    · rw [if_pos good]
      exact (finishes.silent cmd8).bind (.pure _ _)
    · obtain ⟨held', _, holds', _⟩ := register
      exact good (holds.unique holds').1

private theorem readBytes_does (line : Line) (count : Nat) {bus : Bus} (selected : bus.selected = true) :
    ∃ after, Does (readBytes line count) bus () after [] [] := by
  induction count generalizing bus with
  | zero => exact ⟨bus, .pure _ _⟩
  | succ count ih =>
    have kept : (bus.clock .response [dummyByte] [line.card bus.pos] 1).selected = true := selected
    obtain ⟨after, does⟩ := ih kept
    exact ⟨after, (wrRdByte_response line selected).bind does⟩

/-- Both registers are read, or the answer is not zero. -/
theorem spisdGetCardInfo_does (line : Line) (type : CardType) (info : CardInfo) (bus : Bus) :
    ∃ response stored after, Spares cmd8 (spisdGetCardInfo line type info) bus (response, stored) after ∧
      (response = 0 ∧ stored.cardType = type ∧
          (∃ csd, RegisterRead line cmd9 bus.pos csd ∧ RegisterRead line cmd10 csd after.pos) ∨
        response ≠ 0 ∧ ∀ csd cid, RegisterRead line cmd9 bus.pos csd → ¬RegisterRead line cmd10 csd cid) := by
  have dummy := (wrRdByte_dummy line bus).silent cmd8
  obtain ⟨response, held, sends, _, selected, holds⟩ :=
    sendCommandHold_does line cmd9 0 0xFF (bus.clock .dummy [dummyByte] [line.card bus.pos] 1)
  have asks : Spares cmd8 (sendCommandHold line cmd9 0 0xFF) (bus.clock .dummy [dummyByte] [line.card bus.pos] 1) response
      held := sends.spares (by decide)
  by_cases good : response = 0
  · subst good
    obtain ⟨readBus, _, _, ⟨data, token, place, reads⟩ | ⟨missing, reads⟩⟩ :=
      readFramed_does line (cmdWaitRespTimeout * 2) 16 selected
    · obtain ⟨middle, finishes, pos, _, _⟩ := finish_does line readBus
      have gets := reads.silent cmd8
      have ends := finishes.silent cmd8
      have register : RegisterRead line cmd9 bus.pos middle.pos :=
        ⟨held.pos, data, holds, token, by rw [pos, place]⟩
      obtain ⟨response, stored, after, rest, same, outcome⟩ :=
        readCid_does line { info with cardType := type, csd := Nor.slice line.card data 16 } middle
      refine ⟨response, stored, after, dummy.bind (asks.bind (gets.bind (ends.bind rest))), ?_⟩
      rcases outcome with ⟨success, cid⟩ | ⟨failed, never⟩
      · exact .inl ⟨success, same, middle.pos, register, cid⟩
      · refine .inr ⟨failed, fun csd cid again => ?_⟩
        cases register.unique again
        exact never cid
    · obtain ⟨middle, finishes, _, _, _⟩ := finish_does line readBus
      have debug : (middle.setSelected true).selected = true := rfl
      obtain ⟨debugged, debugs⟩ := readBytes_does line 8 debug
      obtain ⟨after, closes, _, _, _⟩ := finish_does line debugged
      have gets := reads.silent cmd8
      have ends := finishes.silent cmd8
      have selects := (select_does middle).silent cmd8
      have looks := debugs.silent cmd8
      have stops := closes.silent cmd8
      refine ⟨1, info, after, dummy.bind (asks.bind (gets.bind (ends.bind (selects.bind (looks.bind (stops.bind
        (.pure _ _))))))), .inr ⟨by decide, ?_⟩⟩
      intro csd cid register
      obtain ⟨held', data, holds', token, _⟩ := register
      obtain ⟨_, rfl⟩ := holds.unique holds'
      exact absurd token (missing data)
  · obtain ⟨after, finishes, _, _, _⟩ := finish_does line held
    refine ⟨response, info, after, dummy.bind (asks.bind ?_), .inr ⟨good, fun csd cid register => ?_⟩⟩
    · rw [if_pos good]
      exact (finishes.silent cmd8).bind (.pure _ _)
    · obtain ⟨held', _, holds', _⟩ := register
      exact absurd (holds.unique holds').1 good

/-- A failed initialisation is reported as a missing or a protected disk, never as one
that is not initialised. -/
theorem classify_status (drive : Drive) (init : Result × CardType) (card : UInt8 × CardInfo) :
    (classify drive init card).1 &&& staNoinit = 0 := by
  unfold classify
  dsimp only
  have nodisk : staNodisk &&& staNoinit = 0 := by decide
  have protect : staProtect &&& staNoinit = 0 := by decide
  split
  next => exact UInt8.zero_and
  next =>
    split
    next => exact nodisk
    next => exact protect

/-- What a call that tries the card does: its status never has STA_NOINIT, and a card
that answers in time leaves its type and an initialised drive. -/
theorem diskInitialize_does (line : Line) {drive : Drive} (fresh : drive.devSts = 0) (bus : Bus) :
    ∃ status stored after, status &&& staNoinit = 0 ∧
      (Spares cmd8 (diskInitialize line drive) bus (status, stored) after ∧
          (∀ next, ¬Within line r1IdleFlag 49 (bus.pos + 20) next) ∨
        Sends cmd8 (diskInitialize line drive) bus (status, stored) after ∧
          ∃ next, Within line r1IdleFlag 49 (bus.pos + 20) next) ∧
      ∀ type, Handshake line 49 bus.pos type →
        stored.devSts = 1 ∧ stored.cardType = type ∧ stored.info.cardType = type := by
  obtain ⟨result, settled, middle, outcome⟩ := spisdInit_does line drive.cardType bus
  obtain ⟨response, info, after, gets, registers⟩ := spisdGetCardInfo_does line settled drive.info middle
  refine ⟨(classify drive (result, settled) (response, info)).1, (classify drive (result, settled) (response, info)).2, after,
    classify_status _ _ _, ?_, fun type handshake => ?_⟩
  · rcases outcome with ⟨inits, _, never⟩ | ⟨idle, inits, within, _⟩
    · refine .inl ⟨?_, never⟩
      rw [diskInitialize, if_pos fresh]
      exact inits.bind (gets.bind (.pure _ _))
    · refine .inr ⟨?_, idle, within⟩
      rw [diskInitialize, if_pos fresh]
      exact inits.bind (gets.runs.bind (.pure _ _))
  · obtain ⟨idle, ready, csd, cid, within, negotiates, first, second⟩ := handshake
    rcases outcome with ⟨_, _, never⟩ | ⟨idle', _, within', settles⟩
    · exact absurd within (never idle)
    · cases within.unique within'
      rcases settles with ⟨rfl, negotiates'⟩ | never
      · obtain ⟨rfl, rfl⟩ := negotiates.unique negotiates'
        rcases registers with ⟨rfl, same, _⟩ | ⟨_, never⟩
        · exact ⟨rfl, rfl, same⟩
        · exact absurd second (never csd cid first)
      · exact absurd negotiates (never type ready)

/-- A call of `disk_initialize`: what the card answers in it, and where the bus stands. -/
structure Attempt where
  line : Line
  bus : Bus

namespace Attempt

def outcome (attempt : Attempt) (drive : Drive) : Option (UInt8 × Drive) :=
  ((diskInitialize attempt.line drive).run attempt.bus).1

def after (attempt : Attempt) (drive : Drive) : Drive := ((attempt.outcome drive).map Prod.snd).getD drive

/-- The call sends the command. -/
def Issues (attempt : Attempt) (drive : Drive) (cmd : UInt8) : Prop :=
  cmd ∈ commands (((diskInitialize attempt.line drive).run attempt.bus).2.log.drop attempt.bus.log.length)

/-- The call tries the card, the card does its part of the handshake with an idle
answer to one of the 50 attempts at CMD0, and the driver goes on to CMD8. -/
structure Completes (attempt : Attempt) (drive : Drive) (type : CardType) : Prop where
  fresh : drive.devSts = 0
  answers : Handshake attempt.line waitIdleTimeout attempt.bus.pos type
  goes_on : attempt.Issues drive cmd8

/-- The same with an idle answer to one of the first 49 attempts, whatever the driver does. -/
structure Answers (attempt : Attempt) (drive : Drive) (type : CardType) : Prop where
  fresh : drive.devSts = 0
  answers : Handshake attempt.line 49 attempt.bus.pos type

end Attempt

private theorem Does.issues {α : Type} {computation : Io α} {before after : Bus} {value : α} {sent issued : List UInt8}
    (does : Does computation before value after sent issued) :
    commands ((computation.run before).2.log.drop before.log.length) = issued := by
  obtain ⟨new, grown, _, issues, _⟩ := does.logs
  rw [does.run, grown, List.drop_left, issues]

private theorem Handshake.later {line : Line} {attempts start : Nat} {type : CardType}
    (handshake : Handshake line attempts start type) : Handshake line (attempts + 1) start type := by
  obtain ⟨idle, ready, csd, cid, within, rest⟩ := handshake
  exact ⟨idle, ready, csd, cid, within.later, rest⟩

/-- The driver goes on to CMD8 when the idle answer came in time, and then only. -/
theorem Attempt.completes_iff (attempt : Attempt) (drive : Drive) (type : CardType) :
    attempt.Completes drive type ↔ attempt.Answers drive type := by
  constructor
  · intro completes
    obtain ⟨fresh, ⟨idle, ready, csd, cid, within, rest⟩, goes_on⟩ := completes
    obtain ⟨_, _, _, _, ⟨⟨_, _, does, absent⟩, _⟩ | ⟨_, _, reached⟩, _⟩ :=
      diskInitialize_does attempt.line fresh attempt.bus
    · rw [Attempt.Issues, does.issues] at goes_on
      exact absurd goes_on absent
    · cases within.unique reached
      exact ⟨fresh, _, ready, csd, cid, reached, rest⟩
  · intro given
    obtain ⟨fresh, handshake⟩ := given
    refine ⟨fresh, handshake.later, ?_⟩
    obtain ⟨idle, _, _, _, within, _⟩ := handshake
    obtain ⟨_, _, _, _, ⟨_, never⟩ | ⟨⟨_, _, does, member⟩, _⟩, _⟩ :=
      diskInitialize_does attempt.line fresh attempt.bus
    · exact absurd within (never idle)
    · rw [Attempt.Issues, does.issues]
      exact member

def driveAfter (calls : List Attempt) : Drive := Run.run Attempt.after calls Drive.boot

/-- Some call of the history completes the handshake. -/
def Completed (calls : List Attempt) (type : CardType) : Prop :=
  ∃ front attempt back, calls = front ++ attempt :: back ∧ attempt.Completes (driveAfter front) type

/-- In some call of the history that tries the card, the card answers in time. -/
def Answered (calls : List Attempt) (type : CardType) : Prop :=
  ∃ front attempt back, calls = front ++ attempt :: back ∧ attempt.Answers (driveAfter front) type

private theorem completed_iff (calls : List Attempt) (type : CardType) : Completed calls type ↔ Answered calls type := by
  constructor
  · intro completed
    obtain ⟨front, attempt, back, same, completes⟩ := completed
    exact ⟨front, attempt, back, same, (attempt.completes_iff _ type).mp completes⟩
  · intro answered
    obtain ⟨front, attempt, back, same, answers⟩ := answered
    exact ⟨front, attempt, back, same, (attempt.completes_iff _ type).mpr answers⟩

private theorem driveAfter_snoc (calls : List Attempt) (call : Attempt) :
    driveAfter (calls ++ [call]) = call.after (driveAfter calls) := Run.run_append _ calls [call] _

private theorem Runs.outcome {attempt : Attempt} {drive stored : Drive} {status : UInt8} {after : Bus}
    (runs : Runs (diskInitialize attempt.line drive) attempt.bus (status, stored) after) :
    attempt.outcome drive = some (status, stored) ∧ attempt.after drive = stored := by
  obtain ⟨_, _, does⟩ := runs
  have answer : attempt.outcome drive = some (status, stored) := congrArg Prod.fst does.run
  refine ⟨answer, ?_⟩
  rw [Attempt.after, answer]
  rfl

/-- One call: it returns a status without STA_NOINIT, leaves an initialised drive alone,
and keeps the type of a card that answers in time. -/
theorem Attempt.steps (attempt : Attempt) (drive : Drive) :
    ∃ status, attempt.outcome drive = some (status, attempt.after drive) ∧ status &&& staNoinit = 0 ∧
      (drive.devSts ≠ 0 → attempt.after drive = drive) ∧
      ∀ type, attempt.Answers drive type → (attempt.after drive).devSts = 1 ∧ (attempt.after drive).cardType = type ∧
        (attempt.after drive).info.cardType = type := by
  by_cases fresh : drive.devSts = 0
  · obtain ⟨status, stored, after, free, way, keeps⟩ := diskInitialize_does attempt.line fresh attempt.bus
    have runs : Runs (diskInitialize attempt.line drive) attempt.bus (status, stored) after := by
      rcases way with ⟨spares, _⟩ | ⟨⟨_, _, does, _⟩, _⟩
      · exact spares.runs
      · exact does.runs
    obtain ⟨returned, rfl⟩ := runs.outcome
    exact ⟨status, returned, free, fun done => absurd fresh done, fun type answers => keeps type answers.answers⟩
  · have runs : Runs (diskInitialize attempt.line drive) attempt.bus (0, drive) attempt.bus := by
      rw [diskInitialize, if_neg fresh]
      exact .pure _ _
    obtain ⟨returned, same⟩ := runs.outcome
    rw [same]
    exact ⟨0, returned, UInt8.zero_and, fun _ => rfl, fun type answers => absurd answers.fresh fresh⟩

/-- A card that has answered in time stays known. -/
theorem Answered.kept {calls : List Attempt} {type : CardType} (answered : Answered calls type) :
    (driveAfter calls).devSts = 1 ∧ (driveAfter calls).cardType = type ∧ (driveAfter calls).info.cardType = type := by
  obtain ⟨front, attempt, back, rfl, answers⟩ := answered
  induction back using List.reverseRecOn with
  | nil =>
    obtain ⟨_, _, _, _, keeps⟩ := attempt.steps (driveAfter front)
    rw [driveAfter_snoc]
    exact keeps type answers
  | append_singleton back call ih =>
    obtain ⟨_, _, _, stays, _⟩ := call.steps (driveAfter (front ++ attempt :: back))
    have nonzero : (driveAfter (front ++ attempt :: back)).devSts ≠ 0 := by
      rw [ih.1]
      decide
    have split : front ++ attempt :: (back ++ [call]) = front ++ attempt :: back ++ [call] := by simp
    rw [split, driveAfter_snoc, stays nonzero]
    exact ih

/-- What `disk_initialize` promises about its status, the stored type and `disk_status`. -/
structure InitMeets (history : List Attempt) (call : Attempt) (status : UInt8) : Prop where
  outcome : status &&& staNoinit = 0 ↔ ∃ type, Completed (history ++ [call]) type
  type : ∀ type, Completed (history ++ [call]) type →
    (driveAfter (history ++ [call])).cardType = type ∧ (driveAfter (history ++ [call])).info.cardType = type
  agrees : diskStatus (driveAfter (history ++ [call])) &&& staNoinit = status &&& staNoinit

/-- The promise is kept when the card has answered in time in some call so far, and then only. -/
theorem diskInitialize_meets_iff (history : List Attempt) (call : Attempt) :
    ∃ status, call.outcome (driveAfter history) = some (status, driveAfter (history ++ [call])) ∧
      (InitMeets history call status ↔ ∃ type, Answered (history ++ [call]) type) := by
  obtain ⟨status, returned, free, _, _⟩ := call.steps (driveAfter history)
  rw [← driveAfter_snoc] at returned
  refine ⟨status, returned, ⟨fun meets => ?_, fun ⟨type, answered⟩ => ?_⟩⟩
  · obtain ⟨type, completed⟩ := meets.outcome.mp free
    exact ⟨type, (completed_iff _ type).mp completed⟩
  · refine ⟨⟨fun _ => ⟨type, (completed_iff _ type).mpr answered⟩, fun _ => free⟩, fun other completed => ?_, ?_⟩
    · exact ((completed_iff _ other).mp completed).kept.2
    · have nonzero : (driveAfter (history ++ [call])).devSts ≠ 0 := by
        rw [answered.kept.1]
        decide
      rw [free, diskStatus, if_neg nonzero]
      exact UInt8.zero_and

def promptCard : Attempt where
  line := ⟨fun position => ([(27, 0x01), (36, 0x01), (39, 0x01), (40, 0xAA), (49, 0x01), (58, 0x00), (67, 0x00), (68, 0x40),
    (81, 0x00), (82, 0xFE), (110, 0x00), (111, 0xFE)].lookup position).getD 0xFF, fun _ => 0, 500⟩
  bus := ⟨0, 0, false, []⟩

example : ((promptCard.outcome Drive.boot).map fun reply => (reply.1, reply.2.devSts, reply.2.cardType)) =
    some (0, 1, .sdv2hc) := by decide +kernel

def emptySlot : Attempt := ⟨⟨fun _ => 0xFF, fun _ => 0, 500⟩, ⟨0, 0, false, []⟩⟩

private theorem emptySlot_responds {start next : Nat} {response : UInt8} (responds : Responds emptySlot.line start response next) :
    response = dummyByte := by
  obtain ⟨answer, last, polled, rfl, _⟩ := responds
  rcases polled with ⟨_, hits, _⟩ | ⟨_, rfl, _⟩
  · cases hits.here
  · rfl

private theorem emptySlot_not_within {attempts start next : Nat} : ¬Within emptySlot.line r1IdleFlag attempts start next := by
  induction attempts generalizing start with
  | zero => exact id
  | succ attempts ih =>
    intro within
    obtain ⟨response, middle, responds, ⟨idle, _⟩ | ⟨_, rest⟩⟩ := within
    · cases emptySlot_responds responds
      exact absurd idle (by decide)
    · exact ih rest

/-- Without a card the call returns a status without STA_NOINIT all the same. -/
theorem diskInitialize_empty_slot :
    ∃ status, emptySlot.outcome (driveAfter []) = some (status, driveAfter [emptySlot]) ∧
      ¬InitMeets [] emptySlot status := by
  obtain ⟨status, returned, free, _, _⟩ := emptySlot.steps (driveAfter [])
  rw [← driveAfter_snoc, List.nil_append] at returned
  refine ⟨status, returned, fun meets => ?_⟩
  obtain ⟨type, completed⟩ := meets.outcome.mp free
  obtain ⟨front, attempt, back, same, _, handshake⟩ := (completed_iff _ type).mp completed
  have member : attempt ∈ [emptySlot] := by
    rw [← List.nil_append [emptySlot], same]
    exact List.mem_append_right front List.mem_cons_self
  cases List.mem_singleton.mp member
  obtain ⟨_, _, _, _, within, _⟩ := handshake
  exact emptySlot_not_within within

end ArduinoK210.Sd
