import ArduinoK210.Lib.Run
import ArduinoK210.Tft.Bus

/-! The cached mode against the controller. A transfer fits when the frame width and the
instruction format in the controller are those of its elements. The cache and the
controller part only when the bus is begun again while a mode is cached. -/

namespace ArduinoK210.Tft
open Spi Dma

namespace Kind

def bits : Kind → Nat
  | .command | .byte => 8
  | .half => 16
  | .word | .fill => 32

/-- The lengths of the instruction and of the address: elements of 32 bits go out as an address. -/
def lengths : Kind → Nat × Nat
  | .command | .byte => (8, 0)
  | .half => (16, 0)
  | .word | .fill => (0, 32)

/-- What `spi_init_non_standard` writes for these lengths: the instruction length from bit 8, the address length from
bit 2, and the transfer type. -/
def format : Kind → Nat
  | .command | .byte => 0x202
  | .half => 0x302
  | .word | .fill => 0x22

/-- The cached modes with which a send programs nothing. -/
def fits : Kind → List Mode
  | .command | .byte => [.dataByte, .command]
  | .half => [.dataHalf]
  | .word => [.dataWord]
  | .fill => [.dataFill]

def mode : Kind → Mode
  | .command => .command
  | .byte => .dataByte
  | .half => .dataHalf
  | .word => .dataWord
  | .fill => .dataFill

end Kind

def Transfer.Fits (transfer : Transfer) : Prop :=
  transfer.port.frameBits = transfer.kind.bits ∧ transfer.port.spiCtrlr0 = transfer.kind.format

def Event.writes : Event → Option (Kind × List UInt32)
  | .writeCommand cmd => some (.command, cmd.map UInt8.toUInt32)
  | .writeByte data => some (.byte, data.map UInt8.toUInt32)
  | .writeHalf data => some (.half, data.map UInt16.toUInt32)
  | .writeWord data => some (.word, data)
  | .fillData word length => some (.fill, List.replicate length word)
  | _ => none

def Granted (table : List DmaChnInfo) : Prop := (halDmaGetFreeChn table).1 < dmacChannelMax

instance (table : List DmaChnInfo) : Decidable (Granted table) := inferInstanceAs (Decidable (_ < _))

namespace Bus

def prepare (kind : Kind) (bus : Bus) : Bus := bus.program kind.fits kind.mode kind.bits kind.lengths.1 kind.lengths.2

private theorem step_writes (pll0 : Nat) {event : Event} {kind : Kind} {words : List UInt32}
    (writes : event.writes = some (kind, words)) (bus : Bus) : bus.step pll0 event = (bus.prepare kind).send kind words := by
  cases event <;> cases writes <;> rfl

end Bus

/-- The bus, and whether it was begun again since the cached mode was programmed. -/
structure Tracked where
  bus : Bus
  restarted : Bool

namespace Tracked

def follow (event : Event) (tracked : Tracked) : Bool :=
  match event, event.writes with
  | .begin clkPin csPin _ _, _ =>
      if clkPin = -1 ∨ csPin = -1 then tracked.restarted else decide (tracked.bus.mode ≠ .invalid)
  | .finish, _ => false
  | _, some (kind, _) => if tracked.bus.mode ∈ kind.fits then tracked.restarted else false
  | _, none => tracked.restarted

def step (pll0 : Nat) (event : Event) (tracked : Tracked) : Tracked :=
  ⟨tracked.bus.step pll0 event, tracked.follow event⟩

/-- A write that gets a channel and finds its mode in the cache needs that the bus was not begun again. -/
def Ok (event : Event) (tracked : Tracked) : Prop :=
  ∀ kind words, event.writes = some (kind, words) → Granted tracked.bus.dma → tracked.bus.mode ∈ kind.fits →
    tracked.restarted = false

/-- What the controller holds, by the cached mode. -/
structure Coherent (tracked : Tracked) : Prop where
  programmed : tracked.restarted = false → ∀ kind : Kind, tracked.bus.mode ∈ kind.fits →
    tracked.bus.port.frameBits = kind.bits ∧ tracked.bus.port.spiCtrlr0 = kind.format
  cleared : tracked.restarted = true → tracked.bus.port.spiCtrlr0 = 0

end Tracked

private theorem frameBits_tmod (port : SpiPort) : port.spiSetTmodTrans.frameBits = port.frameBits := by
  have kept : ∀ i < 5, Nat.testBit (0xFFFFFFFF ^^^ 3 <<< 8) (16 + i) = true := by decide
  have added : ∀ i < 5, Nat.testBit (1 <<< 8) (16 + i) = false := by decide
  have same : (SpiPort.setBit port.ctrlr0 (3 <<< 8) (1 <<< 8) >>> 16) % 2 ^ 5 = (port.ctrlr0 >>> 16) % 2 ^ 5 := by
    apply Nat.eq_of_testBit_eq
    intro i
    simp only [SpiPort.setBit, Nat.testBit_mod_two_pow, Nat.testBit_shiftRight, Nat.testBit_or, Nat.testBit_and]
    by_cases low : i < 5
    · rw [kept i low, added i low, Bool.and_true, Bool.false_and, Bool.or_false]
    · simp [low]
  exact congrArg (· + 1) same

private theorem fits_inj {kind other : Kind} {mode : Mode} (one : mode ∈ kind.fits) (two : mode ∈ other.fits) :
    kind.bits = other.bits ∧ kind.format = other.format := by
  cases kind <;> cases other <;> cases mode <;> simp_all [Kind.fits, Kind.bits, Kind.format]

private theorem mode_fits (kind : Kind) : kind.mode ∈ kind.fits := by
  cases kind <;> simp [Kind.mode, Kind.fits]

private theorem mode_valid {kind : Kind} {mode : Mode} (fits : mode ∈ kind.fits) : mode ≠ .invalid := by
  cases kind <;> cases mode <;> simp_all [Kind.fits]

namespace Bus

variable (bus : Bus) (kind : Kind) (words : List UInt32)

theorem prepare_dma : (bus.prepare kind).dma = bus.dma := by
  unfold prepare program
  split <;> rfl

theorem prepare_transfers : (bus.prepare kind).transfers = bus.transfers := by
  unfold prepare program
  split <;> rfl

private theorem prepare_mode : (bus.prepare kind).mode ∈ kind.fits := by
  unfold prepare program
  split
  · next cached => exact cached
  · exact mode_fits kind

private theorem setPort_port (port : SpiPort) : (bus.setPort port).port = port := by
  simp [Bus.port, setPort]

private theorem prepare_port (missed : bus.mode ∉ kind.fits) :
    (bus.prepare kind).port.frameBits = kind.bits ∧ (bus.prepare kind).port.spiCtrlr0 = kind.format := by
  unfold prepare program
  rw [if_neg missed, setPort_port]
  cases kind <;> simp [SpiPort.frameBits, SpiPort.spiInit, SpiPort.spiInitNonStandard, Kind.bits, Kind.lengths, Kind.format,
    FrameFormat.code]

private theorem send_mode : (bus.send kind words).mode = bus.mode := by
  unfold send
  split
  split <;> rfl

private theorem send_port : (bus.send kind words).port.frameBits = bus.port.frameBits ∧
    (bus.send kind words).port.spiCtrlr0 = bus.port.spiCtrlr0 := by
  unfold send
  split
  split
  · exact ⟨rfl, rfl⟩
  · rw [setPort_port]
    exact ⟨frameBits_tmod bus.port, rfl⟩

private theorem send_transfers : (∀ transfer ∈ (bus.send kind words).transfers, transfer.Fits) ↔
    (∀ transfer ∈ bus.transfers, transfer.Fits) ∧
      (Granted bus.dma → bus.port.frameBits = kind.bits ∧ bus.port.spiCtrlr0 = kind.format) := by
  unfold send Granted
  split
  next chn table lent =>
    rw [lent]
    split
    · next refused => exact ⟨fun fits => ⟨fits, fun granted => absurd granted (Nat.not_lt.mpr refused)⟩, fun fits => fits.1⟩
    · next granted =>
      have bits : (bus.port.sending bus.spi.tftBus.cs).frameBits = bus.port.frameBits := frameBits_tmod bus.port
      refine ⟨fun fits => ⟨fun transfer member => ?_, fun _ => ?_⟩, fun fits transfer member => ?_⟩
      · exact fits transfer (List.mem_append_left _ member)
      · have newest := fits ⟨kind, chn, bus.port.sending bus.spi.tftBus.cs, words⟩ (List.mem_append_right _ (List.mem_singleton.mpr rfl))
        exact ⟨bits.symm.trans newest.1, newest.2⟩
      · obtain older | newest := List.mem_append.mp member
        · exact fits.1 transfer older
        · obtain ⟨width, format⟩ := fits.2 (Nat.lt_of_not_le granted)
          rw [List.mem_singleton.mp newest]
          exact ⟨bits.trans width, format⟩

private theorem transfers_grow (pll0 : Nat) (event : Event) : bus.transfers <+: (bus.step pll0 event).transfers := by
  cases writes : event.writes with
  | none => cases event <;> cases writes <;> exact List.prefix_rfl
  | some write =>
    rw [step_writes pll0 writes, ← prepare_transfers bus write.1, send]
    split
    split
    · exact List.prefix_rfl
    · exact List.prefix_append _ _

end Bus

namespace Tracked

variable {pll0 : Nat} {tracked : Tracked} {event : Event} {kind : Kind} {words : List UInt32}

private theorem follow_writes (writes : event.writes = some (kind, words)) :
    tracked.follow event = if tracked.bus.mode ∈ kind.fits then tracked.restarted else false := by
  cases event <;> cases writes <;> rfl

private theorem Coherent.writes (coherent : tracked.Coherent) (writes : event.writes = some (kind, words)) :
    (tracked.step pll0 event).Coherent := by
  have follow : tracked.follow event = _ := follow_writes writes
  have port := (tracked.bus.prepare kind).send_port kind words
  rw [← Bus.step_writes pll0 writes] at port
  have mode := (tracked.bus.prepare kind).send_mode kind words
  rw [← Bus.step_writes pll0 writes] at mode
  by_cases cached : tracked.bus.mode ∈ kind.fits
  · have same : tracked.bus.prepare kind = tracked.bus := if_pos cached
    rw [if_pos cached] at follow
    rw [same] at port mode
    refine ⟨fun kept other fits => ?_, fun restarted => ?_⟩
    · rw [step, mode] at fits
      have before := coherent.programmed (follow.symm.trans kept) other fits
      exact ⟨port.1.trans before.1, port.2.trans before.2⟩
    · exact port.2.trans (coherent.cleared (follow.symm.trans restarted))
  · rw [if_neg cached] at follow
    obtain ⟨width, format⟩ := tracked.bus.prepare_port kind cached
    refine ⟨fun _ other fits => ?_, fun restarted => ?_⟩
    · rw [step, mode] at fits
      obtain ⟨bits, formats⟩ := fits_inj (tracked.bus.prepare_mode kind) fits
      exact ⟨(port.1.trans width).trans bits, (port.2.trans format).trans formats⟩
    · cases follow.symm.trans restarted

private theorem Coherent.begins (coherent : tracked.Coherent) (clkPin csPin dcPin : Int8) (freq : Nat) :
    (tracked.step pll0 (.begin clkPin csPin dcPin freq)).Coherent := by
  by_cases refused : clkPin = -1 ∨ csPin = -1
  · have same : tracked.step pll0 (.begin clkPin csPin dcPin freq) = tracked := by
      simp [step, Bus.step, Bus.halTftBegin, Controllers.halTftBegin, follow, refused]
    rw [same]
    exact coherent
  · have follow : (tracked.step pll0 (.begin clkPin csPin dcPin freq)).restarted = decide (tracked.bus.mode ≠ .invalid) :=
      if_neg refused
    refine ⟨fun kept kind fits => ?_, fun _ => ?_⟩
    · rw [follow] at kept
      exact absurd (of_decide_eq_false kept) (not_not.mpr (mode_valid fits))
    · simp [step, Bus.step, Bus.halTftBegin, Controllers.halTftBegin, refused, Bus.port, SpiPort.spiSetClkRate, SpiPort.spiInit]

private theorem Coherent.step (coherent : tracked.Coherent) (event : Event) : (tracked.step pll0 event).Coherent := by
  cases writes : event.writes with
  | some write => exact coherent.writes writes
  | none =>
    cases event with
    | begin clkPin csPin dcPin freq => exact coherent.begins clkPin csPin dcPin freq
    | finish =>
      refine ⟨fun _ kind fits => ?_, fun restarted => ?_⟩
      · exact absurd rfl (mode_valid fits)
      · cases restarted
    | others table => exact ⟨coherent.programmed, coherent.cleared⟩
    | _ => cases writes

/-- Every transfer so far fits. -/
def AllFit (tracked : Tracked) : Prop := ∀ transfer ∈ tracked.bus.transfers, transfer.Fits

private theorem step_fits_iff (event : Event) (tracked : Tracked) (sound : tracked.AllFit ∧ tracked.Coherent) :
    (tracked.step pll0 event).AllFit ∧ (tracked.step pll0 event).Coherent ↔ Ok event tracked := by
  obtain ⟨fit, coherent⟩ := sound
  rw [and_iff_left (coherent.step event)]
  cases writes : event.writes with
  | none =>
    have same : (tracked.step pll0 event).bus.transfers = tracked.bus.transfers := by
      cases event <;> cases writes <;> rfl
    refine ⟨fun _ kind words impossible => ?_, fun _ => ?_⟩
    · cases writes.symm.trans impossible
    · rw [AllFit, same]
      exact fit
  | some write =>
    obtain ⟨kind, words⟩ := write
    have needed : Ok event tracked ↔ (Granted tracked.bus.dma → tracked.bus.mode ∈ kind.fits → tracked.restarted = false) := by
      refine ⟨fun ok => ok kind words writes, fun given other _ same => ?_⟩
      cases writes.symm.trans same
      exact given
    rw [needed, AllFit, step, Bus.step_writes pll0 writes, Bus.send_transfers, Bus.prepare_transfers, Bus.prepare_dma]
    refine (and_iff_right fit).trans ?_
    apply forall_congr'
    intro _
    by_cases cached : tracked.bus.mode ∈ kind.fits
    · have same : tracked.bus.prepare kind = tracked.bus := if_pos cached
      rw [same]
      refine ⟨fun fits _ => ?_, fun kept => coherent.programmed (kept cached) kind cached⟩
      cases flag : tracked.restarted with
      | false => rfl
      | true =>
        have format := fits.2.symm.trans (coherent.cleared flag)
        cases kind <;> cases format
    · exact ⟨fun _ found => absurd found cached, fun _ => tracked.bus.prepare_port kind cached⟩

private theorem run_bus (pll0 : Nat) (events : List Event) (tracked : Tracked) :
    (Run.run (step pll0) events tracked).bus = Run.run (Bus.step pll0) events tracked.bus :=
  Run.run_project Tracked.bus (fun _ _ => rfl) events tracked

private theorem run_transfers_grow (pll0 : Nat) (events : List Event) (bus : Bus) :
    bus.transfers <+: (Run.run (Bus.step pll0) events bus).transfers := by
  induction events generalizing bus with
  | nil => exact List.prefix_rfl
  | cons event events ih => exact (bus.transfers_grow pll0 event).trans (ih (bus.step pll0 event))

end Tracked

/-- Every transfer of a run finds the controller programmed for its elements exactly when no write with a channel meets a
cached mode from before the bus was begun again. -/
theorem transfers_fit_iff (pll0 : Nat) (spi : Controllers) (dma : List DmaChnInfo) (events : List Event) :
    (∀ transfer ∈ (Run.run (Bus.step pll0) events (Bus.start spi dma)).transfers, transfer.Fits) ↔
      Run.Guarded (Tracked.step pll0) Tracked.Ok events ⟨Bus.start spi dma, false⟩ := by
  have initial : (Tracked.mk (Bus.start spi dma) false).AllFit ∧ (Tracked.mk (Bus.start spi dma) false).Coherent := by
    refine ⟨?_, fun _ kind fits => ?_, fun impossible => ?_⟩
    · intro transfer impossible
      cases impossible
    · exact absurd rfl (mode_valid fits)
    · cases impossible
  rw [← Run.guarded_iff Tracked.step_fits_iff events _ initial]
  refine ⟨fun fits front sub => ⟨?_, ?_⟩, fun sound => ?_⟩
  · obtain ⟨rest, rfl⟩ := sub
    intro transfer member
    apply fits
    rw [Run.run_append]
    rw [Tracked.run_bus] at member
    exact (Tracked.run_transfers_grow pll0 rest _).subset member
  · exact Run.invariant (fun event _ coherent => coherent.step event) front _ initial.2
  · have whole := (sound events List.prefix_rfl).1
    rwa [Tracked.AllFit, Tracked.run_bus] at whole

/-- A half word is sent with frames of 8 bits after a second `begin`. -/
theorem half_after_second_begin :
    ¬∀ transfer ∈ (Run.run (Bus.step 800000000)
      [.begin 39 36 38 10000000, .writeHalf [0x1234], .begin 39 36 38 10000000, .writeHalf [0x1234]]
      (Bus.start (Controllers.start (fun _ => ⟨false, 0, 0, 0, 0, 0, 0, 0, 0, 0, 0, 0⟩) ⟨fun _ => 0, fun _ => 0⟩ (fun _ => 0)
        fun _ => ⟨0, 0⟩) dmaChnInfo)).transfers, transfer.Fits := by
  intro fits
  have second := fits _ (List.mem_cons_of_mem _ (List.mem_singleton.mpr rfl))
  cases second.2

end ArduinoK210.Tft
