import ArduinoK210.Lib.Comp
import ArduinoK210.Lib.Nor

/-! The SPI line to the card. What the card clocks out and what the tick counter
shows are arbitrary sequences; the line keeps a log of every transfer and of every
change of chip select. -/

namespace ArduinoK210.Sd

/-- The byte the card clocks out at each position, the value of each reading of the
tick counter, and `rt_tick_from_millisecond(CARD_BUSY_TIMEOUT_MS)`. -/
structure Line where
  card : Nat → UInt8
  tick : Nat → UInt32
  timeout : UInt32

inductive Purpose where
  | dummy | packet | response | token | data | crc | busy
  deriving DecidableEq

/-- A transfer carries what the host sent and what it kept of the answer. -/
inductive Event where
  | select
  | relese
  | transfer (selected : Bool) (purpose : Purpose) (sent kept : List UInt8)
  deriving DecidableEq

structure Bus where
  pos : Nat
  ticks : Nat
  selected : Bool
  log : List Event

def dummyByte : UInt8 := 0xFF

abbrev Io := Comp Bus

namespace Bus

def clock (purpose : Purpose) (sent kept : List UInt8) (count : Nat) (bus : Bus) : Bus :=
  { bus with pos := bus.pos + count, log := bus.log ++ [.transfer bus.selected purpose sent kept] }

def setSelected (selected : Bool) (bus : Bus) : Bus :=
  { bus with selected, log := bus.log ++ [if selected then .select else .relese] }

def readTick (bus : Bus) : Bus := { bus with ticks := bus.ticks + 1 }

end Bus

def wrRdByte (line : Line) (purpose : Purpose) (byte : UInt8) : Io UInt8 :=
  .act fun bus => (line.card bus.pos, bus.clock purpose [byte] [line.card bus.pos] 1)

def write (purpose : Purpose) (bytes : List UInt8) : Io Unit := .act fun bus => ((), bus.clock purpose bytes [] bytes.length)

def read (line : Line) (purpose : Purpose) (size : Nat) : Io (List UInt8) :=
  .act fun bus => (Nor.slice line.card bus.pos size, bus.clock purpose [] (Nor.slice line.card bus.pos size) size)

def select : Io Unit := .act fun bus => ((), bus.setSelected true)

def relese : Io Unit := .act fun bus => ((), bus.setSelected false)

def rtTickGet (line : Line) : Io UInt32 := .act fun bus => (line.tick bus.ticks, bus.readTick)

/-- `_io->relese()` and the dummy byte after it. -/
def finish (line : Line) : Io Unit := do
  relese
  let _ ← wrRdByte line .dummy dummyByte
  pure ()

/-- The bytes of tokens, blocks and checksums that went out under chip select. -/
def payload : List Event → List UInt8
  | [] => []
  | .transfer true .token sent _ :: rest | .transfer true .data sent _ :: rest | .transfer true .crc sent _ :: rest =>
    sent ++ payload rest
  | _ :: rest => payload rest

/-- The command numbers of the packets sent, without the start bits. -/
def commands : List Event → List UInt8
  | [] => []
  | .transfer _ .packet (first :: _) _ :: rest => (first &&& 0x3F) :: commands rest
  | _ :: rest => commands rest

/-- While chip select is released only dummy bytes are clocked, and all that the
host sends besides packets, tokens, blocks and checksums is dummy bytes. -/
def Orderly : Event → Prop
  | .select | .relese => True
  | .transfer selected purpose sent _ =>
    (selected = false → purpose = .dummy) ∧
      (purpose = .dummy ∨ purpose = .response ∨ purpose = .busy → sent = [dummyByte])

private theorem payload_append (first second : List Event) : payload (first ++ second) = payload first ++ payload second := by
  induction first with
  | nil => rfl
  | cons event rest ih =>
    cases event with
    | select => exact ih
    | relese => exact ih
    | transfer selected purpose sent kept =>
      cases selected <;> cases purpose <;> simp [payload, ih]

private theorem commands_append (first second : List Event) : commands (first ++ second) = commands first ++ commands second := by
  induction first with
  | nil => rfl
  | cons event rest ih =>
    cases event with
    | select => exact ih
    | relese => exact ih
    | transfer selected purpose sent kept =>
      cases sent <;> cases purpose <;> simp [commands, ih]

/-- What the log has grown by: the payload and the commands sent, in an orderly way. -/
def Logs (before after : Bus) (sent issued : List UInt8) : Prop :=
  ∃ new, after.log = before.log ++ new ∧ payload new = sent ∧ commands new = issued ∧ ∀ event ∈ new, Orderly event

theorem Logs.refl (bus : Bus) : Logs bus bus [] [] := ⟨[], by simp, rfl, rfl, by simp⟩

theorem Logs.trans {before middle after : Bus} {sent issued rest more : List UInt8}
    (first : Logs before middle sent issued) (last : Logs middle after rest more) :
    Logs before after (sent ++ rest) (issued ++ more) := by
  obtain ⟨front, frontLog, frontSent, frontIssued, frontOrderly⟩ := first
  obtain ⟨back, backLog, backSent, backIssued, backOrderly⟩ := last
  refine ⟨front ++ back, ?_, ?_, ?_, ?_⟩
  · rw [backLog, frontLog, List.append_assoc]
  · rw [payload_append, frontSent, backSent]
  · rw [commands_append, frontIssued, backIssued]
  · intro event member
    exact (List.mem_append.mp member).elim (frontOrderly event) (backOrderly event)

theorem Logs.clock {purpose : Purpose} {sent kept payloadBytes issued : List UInt8} {count : Nat} {bus : Bus}
    (paid : payload [.transfer bus.selected purpose sent kept] = payloadBytes)
    (issues : commands [.transfer bus.selected purpose sent kept] = issued)
    (orderly : Orderly (.transfer bus.selected purpose sent kept)) :
    Logs bus (bus.clock purpose sent kept count) payloadBytes issued := by
  refine ⟨[.transfer bus.selected purpose sent kept], rfl, paid, issues, fun event member => ?_⟩
  cases List.mem_singleton.mp member
  exact orderly

theorem Logs.setSelected (selected : Bool) (bus : Bus) : Logs bus (bus.setSelected selected) [] [] := by
  refine ⟨[if selected then .select else .relese], rfl, ?_, ?_, ?_⟩
  · cases selected <;> rfl
  · cases selected <;> rfl
  · intro event member
    cases List.mem_singleton.mp member
    cases selected <;> exact trivial

theorem Logs.dummy (kept : List UInt8) (bus : Bus) : Logs bus (bus.clock .dummy [dummyByte] kept 1) [] [] := by
  apply Logs.clock
  · cases bus.selected <;> rfl
  · rfl
  · exact ⟨fun _ => rfl, fun _ => rfl⟩

theorem Logs.poll {purpose : Purpose} (kind : purpose = .response ∨ purpose = .busy) (kept : List UInt8) {bus : Bus}
    (selected : bus.selected = true) : Logs bus (bus.clock purpose [dummyByte] kept 1) [] [] := by
  apply Logs.clock
  · rw [selected]
    rcases kind with rfl | rfl <;> rfl
  · rcases kind with rfl | rfl <;> rfl
  · exact ⟨fun released => absurd (selected.symm.trans released) (by simp), fun _ => rfl⟩

theorem Logs.payload {purpose : Purpose} (kind : purpose = .token ∨ purpose = .data ∨ purpose = .crc)
    (sent kept : List UInt8) (count : Nat) {bus : Bus} (selected : bus.selected = true) :
    Logs bus (bus.clock purpose sent kept count) sent [] := by
  apply Logs.clock
  · rw [selected]
    rcases kind with rfl | rfl | rfl <;> simp [Sd.payload]
  · rcases kind with rfl | rfl | rfl <;> rfl
  · refine ⟨fun released => absurd (selected.symm.trans released) (by simp), fun other => ?_⟩
    rcases kind with rfl | rfl | rfl <;> simp at other

theorem Logs.packet (first : UInt8) (rest : List UInt8) (count : Nat) {bus : Bus} (selected : bus.selected = true) :
    Logs bus (bus.clock .packet (first :: rest) [] count) [] [first &&& 0x3F] := by
  apply Logs.clock
  · rw [selected]
    rfl
  · rfl
  · exact ⟨fun released => absurd (selected.symm.trans released) (by simp), fun other => by simp at other⟩

/-- Chip select is released, and one dummy byte has been clocked since. -/
def Finished (bus : Bus) : Prop :=
  bus.selected = false ∧ ∃ front kept, bus.log = front ++ [.relese, .transfer false .dummy [dummyByte] kept]

/-- The computation comes back with `value`, and the log has grown by this much. -/
structure Does {α : Type} (computation : Io α) (before : Bus) (value : α) (after : Bus) (sent issued : List UInt8) :
    Prop where
  run : computation.run before = (some value, after)
  logs : Logs before after sent issued

/-- The computation does not come back, and the log has grown by this much so far. -/
structure Hangs {α : Type} (computation : Io α) (before after : Bus) (sent issued : List UInt8) : Prop where
  run : computation.run before = (none, after)
  logs : Logs before after sent issued

section Sequencing

variable {α β : Type} {first : Io α} {next : α → Io β} {before middle after : Bus} {value : α} {result : β}
variable {sent issued rest more : List UInt8}

theorem Does.bind (one : Does first before value middle sent issued)
    (two : Does (next value) middle result after rest more) :
    Does (first >>= next) before result after (sent ++ rest) (issued ++ more) :=
  ⟨(Comp.run_bind_some one.run).trans two.run, one.logs.trans two.logs⟩

theorem Does.bind_hangs (one : Does first before value middle sent issued)
    (two : Hangs (next value) middle after rest more) :
    Hangs (first >>= next) before after (sent ++ rest) (issued ++ more) :=
  ⟨(Comp.run_bind_some one.run).trans two.run, one.logs.trans two.logs⟩

theorem Hangs.bind (one : Hangs first before after sent issued) : Hangs (first >>= next) before after sent issued :=
  ⟨Comp.run_bind_none one.run, one.logs⟩

theorem Does.follow {whole tail : Io α} (same : whole.run before = tail.run middle) (start : Logs before middle sent issued)
    (does : Does tail middle value after rest more) : Does whole before value after (sent ++ rest) (issued ++ more) :=
  ⟨same.trans does.run, start.trans does.logs⟩

theorem Hangs.follow {whole tail : Io α} (same : whole.run before = tail.run middle) (start : Logs before middle sent issued)
    (hangs : Hangs tail middle after rest more) : Hangs whole before after (sent ++ rest) (issued ++ more) :=
  ⟨same.trans hangs.run, start.trans hangs.logs⟩

theorem Does.pure (value : α) (bus : Bus) : Does (Pure.pure value) bus value bus [] [] := ⟨rfl, .refl bus⟩

end Sequencing

theorem finish_does (line : Line) (bus : Bus) :
    ∃ after, Does (finish line) bus () after [] [] ∧ after.pos = bus.pos + 1 ∧ after.ticks = bus.ticks ∧
      Finished after := by
  refine ⟨(bus.setSelected false).clock .dummy [dummyByte] [line.card bus.pos] 1, ⟨rfl, ?_⟩, rfl, rfl, rfl, bus.log,
    [line.card bus.pos], ?_⟩
  · exact (Logs.setSelected false bus).trans (Logs.dummy _ _)
  · simp only [Bus.clock, Bus.setSelected, Bool.false_eq_true, if_false, List.append_assoc]
    rfl

/-- What a response, a dummy byte and a payload byte do to the line. -/
theorem wrRdByte_response (line : Line) {bus : Bus} (selected : bus.selected = true) :
    Does (wrRdByte line .response dummyByte) bus (line.card bus.pos)
      (bus.clock .response [dummyByte] [line.card bus.pos] 1) [] [] :=
  ⟨rfl, .poll (.inl rfl) _ selected⟩

theorem wrRdByte_dummy (line : Line) (bus : Bus) :
    Does (wrRdByte line .dummy dummyByte) bus (line.card bus.pos)
      (bus.clock .dummy [dummyByte] [line.card bus.pos] 1) [] [] :=
  ⟨rfl, .dummy _ bus⟩

theorem wrRdByte_payload (line : Line) {purpose : Purpose} (kind : purpose = .token ∨ purpose = .data ∨ purpose = .crc)
    (byte : UInt8) {bus : Bus} (selected : bus.selected = true) :
    Does (wrRdByte line purpose byte) bus (line.card bus.pos) (bus.clock purpose [byte] [line.card bus.pos] 1) [byte] [] :=
  ⟨rfl, .payload kind _ _ _ selected⟩

theorem read_does (line : Line) (size : Nat) {bus : Bus} (selected : bus.selected = true) :
    Does (read line .data size) bus (Nor.slice line.card bus.pos size)
      (bus.clock .data [] (Nor.slice line.card bus.pos size) size) [] [] :=
  ⟨rfl, .payload (.inr (.inl rfl)) _ _ _ selected⟩

theorem select_does (bus : Bus) : Does select bus () (bus.setSelected true) [] [] := ⟨rfl, .setSelected true bus⟩

end ArduinoK210.Sd
