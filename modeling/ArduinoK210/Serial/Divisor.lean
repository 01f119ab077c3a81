import ArduinoK210.Serial.UartHal

/-! The registers that `rt_uart_configure` writes, and the divisor that they hold. -/

namespace ArduinoK210.Serial

/-- The registers of a UART that are accessed here. -/
inductive Register where
  | LCR
  | DLH
  | DLL
  | DLF
  | IER
  | FCR
  deriving DecidableEq, Repr

abbrev Writes := List (Register × UInt32)

namespace Writes

def store (register : Register) (value : UInt32) (writes : Writes) : Writes := writes ++ [(register, value)]

/-- A read and a write. What a register reads as is up to the device. -/
def modify (read : Writes → Register → UInt32) (register : Register) (change : UInt32 → UInt32) (writes : Writes) : Writes :=
  writes.store register (change (read writes register))

def values (register : Register) (writes : Writes) : List UInt32 :=
  writes.filterMap fun write => if write.1 = register then some write.2 else none

end Writes

structure DeviceUart where
  hwBase : UInt32
  irqno : UInt32

structure RtSerialDevice where
  config : SerialConfigure
  userData : Option DeviceUart

def getUartChannel (addr : UInt32) : Nat :=
  if addr = 0x50210000 then 0 else if addr = 0x50220000 then 1 else if addr = 0x50230000 then 2 else uartDeviceMax

def uartStop1 : Nat := 0
def uartStop15 : Nat := 1
def uartStop2 : Nat := 2

def parityVal (parity : Nat) : Option UInt32 :=
  if parity = 0 then some 0 else if parity = 1 then some 1 else if parity = 2 then some 3 else none

def parts (divisor : UInt32) : UInt8 × UInt8 × UInt8 :=
  let dlh := (divisor >>> 12).toUInt8
  let dll := ((divisor - (dlh.toUInt32 <<< 12)) / 16).toUInt8
  let dlf := (divisor - (dlh.toUInt32 <<< 12) - dll.toUInt32 * 16).toUInt8
  (dlh, dll, dlf)

/-- The accesses of `rt_uart_configure` to a UART. -/
def program (read : Writes → Register → UInt32) (divisor : UInt8 × UInt8 × UInt8) (dataWidth : Nat) (stopbitVal parityVal : UInt32) :
    Writes :=
  let (dlh, dll, dlf) := divisor
  let writes : Writes := Writes.modify read .LCR (· ||| (1 : UInt32) <<< 7) []
  let writes := writes.store .DLH dlh.toUInt32
  let writes := writes.store .DLL dll.toUInt32
  let writes := writes.store .DLF dlf.toUInt32
  let writes := writes.store .LCR 0
  let writes := writes.store .LCR (UInt32.ofNat (dataWidth - 5) ||| stopbitVal <<< 2 ||| parityVal <<< 3)
  let writes := writes.modify read .LCR (· &&& ~~~((1 : UInt32) <<< 7))
  let writes := writes.modify read .IER (· ||| 0x80)
  writes.store .FCR ((0 : UInt32) <<< 6 ||| (3 : UInt32) <<< 4 ||| (1 : UInt32) <<< 3 ||| 1)

/-- `rt_uart_configure`, with the channel that it is for. A failed assertion and a division by zero have no result. -/
def rtUartConfigure (read : Writes → Register → UInt32) (freq : UInt32) (serial : Option RtSerialDevice) (cfg : SerialConfigure) :
    Option (RtSerialDevice × Nat × Writes) := do
  guard (cfg.baudRate ≠ 0)
  let divisor := parts (freq / cfg.baudRate)
  let serial ← serial
  let uart ← serial.userData
  let channel := getUartChannel uart.hwBase
  guard (channel ≠ uartDeviceMax)
  guard (5 ≤ cfg.dataBits ∧ cfg.dataBits ≤ 8)
  guard (if cfg.dataBits = 5 then cfg.stopBits ≠ uartStop2 else cfg.stopBits ≠ uartStop15)
  let stopbitVal := if cfg.stopBits = uartStop1 then 0 else 1
  let parityVal ← parityVal cfg.parity
  return ({ serial with config := cfg }, channel, program read divisor cfg.dataBits stopbitVal parityVal)

/-- The divisor registers were each written once, and hold a divisor in parts of eight, eight and four bits. -/
def Programs (writes : Writes) (divisor : Nat) : Prop :=
  ∃ dlh dll dlf : UInt32, writes.values .DLH = [dlh] ∧ writes.values .DLL = [dll] ∧ writes.values .DLF = [dlf] ∧
    dlh.toNat * 4096 + dll.toNat * 16 + dlf.toNat = divisor ∧ dlh.toNat < 256 ∧ dll.toNat < 256 ∧ dlf.toNat < 16

section Parts
variable (divisor : UInt32)

private theorem parts_dlh : (parts divisor).1.toNat = divisor.toNat / 4096 % 256 := by
  have shift : (divisor >>> 12).toNat = divisor.toNat / 4096 := by
    rw [UInt32.toNat_shiftRight, Nat.shiftRight_eq_div_pow]
    rfl
  rw [parts, UInt32.toNat_toUInt8, shift]

theorem parts_rest : (divisor - (parts divisor).1.toUInt32 <<< 12).toNat = divisor.toNat - divisor.toNat / 4096 % 256 * 4096 := by
  have high : ((parts divisor).1.toUInt32 <<< 12).toNat = divisor.toNat / 4096 % 256 * 4096 := by
    rw [UInt32.toNat_shiftLeft, UInt8.toNat_toUInt32, parts_dlh, Nat.shiftLeft_eq]
    exact Nat.mod_eq_of_lt (show divisor.toNat / 4096 % 256 * 4096 < 2 ^ 32 by omega)
  rw [UInt32.toNat_sub_of_le, high]
  rw [UInt32.le_iff_toNat_le, high]
  omega

private theorem parts_dll : (parts divisor).2.1.toNat = (divisor.toNat - divisor.toNat / 4096 % 256 * 4096) / 16 % 256 := by
  rw [← parts_rest]
  exact (UInt32.toNat_toUInt8 _).trans (congrArg (· % 256) (UInt32.toNat_div _ _))

private theorem parts_dlf : (parts divisor).2.2.toNat =
    (divisor.toNat - divisor.toNat / 4096 % 256 * 4096 - (parts divisor).2.1.toNat * 16) % 256 := by
  have rest := parts_rest divisor
  have middle : ((parts divisor).2.1.toUInt32 * 16).toNat = (parts divisor).2.1.toNat * 16 := by
    have small := (parts divisor).2.1.toNat_lt
    rw [UInt32.toNat_mul, UInt8.toNat_toUInt32]
    exact Nat.mod_eq_of_lt (show (parts divisor).2.1.toNat * 16 < 2 ^ 32 by omega)
  have order : (parts divisor).2.1.toUInt32 * 16 ≤ divisor - (parts divisor).1.toUInt32 <<< (12 : UInt32) := by
    rw [UInt32.le_iff_toNat_le, middle, rest, parts_dll]
    omega
  rw [← middle, ← rest, ← UInt32.toNat_sub_of_le _ _ order]
  exact UInt32.toNat_toUInt8 _

theorem parts_sum : (parts divisor).1.toNat * 4096 + (parts divisor).2.1.toNat * 16 + (parts divisor).2.2.toNat =
    divisor.toNat % 2 ^ 20 := by
  rw [parts_dlf, parts_dll, parts_dlh]
  omega

private theorem parts_dlf_lt : (parts divisor).2.2.toNat < 16 := by
  rw [parts_dlf, parts_dll]
  omega

end Parts

section Configure
variable {read : Writes → Register → UInt32} {freq : UInt32} {serial : Option RtSerialDevice} {cfg : SerialConfigure}
  {device : RtSerialDevice} {channel : Nat} {writes : Writes}

/-- What is known of a configuration that is accepted. -/
structure Configured (freq : UInt32) (cfg : SerialConfigure) (device : RtSerialDevice) (channel : Nat) (writes : Writes) : Prop where
  config : device.config = cfg
  channel : channel < uartDeviceMax
  dlh : writes.values .DLH = [(parts (freq / cfg.baudRate)).1.toUInt32]
  dll : writes.values .DLL = [(parts (freq / cfg.baudRate)).2.1.toUInt32]
  dlf : writes.values .DLF = [(parts (freq / cfg.baudRate)).2.2.toUInt32]

private theorem getUartChannel_le (addr : UInt32) : getUartChannel addr ≤ uartDeviceMax := by
  unfold getUartChannel
  split_ifs <;> decide

private theorem program_values (divisor : UInt8 × UInt8 × UInt8) (dataWidth : Nat) (stopbitVal parityVal : UInt32) :
    (program read divisor dataWidth stopbitVal parityVal).values .DLH = [divisor.1.toUInt32] ∧
      (program read divisor dataWidth stopbitVal parityVal).values .DLL = [divisor.2.1.toUInt32] ∧
      (program read divisor dataWidth stopbitVal parityVal).values .DLF = [divisor.2.2.toUInt32] :=
  ⟨rfl, rfl, rfl⟩

private theorem guard_holds {condition : Prop} [Decidable condition] {value : Unit} (passed : (guard condition : Option Unit) = some value) :
    condition := by
  by_contra fails
  rw [guard, if_neg fails] at passed
  cases passed

private theorem rtUartConfigure_configured (accepted : rtUartConfigure read freq serial cfg = some (device, channel, writes)) :
    Configured freq cfg device channel writes := by
  unfold rtUartConfigure at accepted
  simp only [Option.bind_eq_bind, Option.bind_eq_some_iff] at accepted
  obtain ⟨_, _, serial, _, uart, _, _, known, _, _, _, _, parityVal, _, same⟩ := accepted
  have known := guard_holds known
  have most := getUartChannel_le uart.hwBase
  cases same
  obtain ⟨dlh, dll, dlf⟩ := @program_values read (parts (freq / cfg.baudRate)) cfg.dataBits
    (if cfg.stopBits = uartStop1 then 0 else 1) parityVal
  exact ⟨rfl, Nat.lt_of_le_of_ne most known, dlh, dll, dlf⟩

/-- What is programmed is the quotient's low twenty bits. -/
theorem Configured.programs (configured : Configured freq cfg device channel writes) :
    Programs writes (freq.toNat / cfg.baudRate.toNat % 2 ^ 20) := by
  have sum := parts_sum (freq / cfg.baudRate)
  rw [UInt32.toNat_div] at sum
  refine ⟨_, _, _, configured.dlh, configured.dll, configured.dlf, ?_, UInt8.toNat_lt _, UInt8.toNat_lt _, ?_⟩
  · rw [UInt8.toNat_toUInt32, UInt8.toNat_toUInt32, UInt8.toNat_toUInt32]
    exact sum
  · rw [UInt8.toNat_toUInt32]
    exact parts_dlf_lt _

private theorem Programs.unique {first second : Nat} (one : Programs writes first) (two : Programs writes second) : first = second := by
  obtain ⟨dlh, dll, dlf, high, low, fraction, rfl, -⟩ := one
  obtain ⟨_, _, _, high', low', fraction', rfl, -⟩ := two
  rw [high] at high'
  rw [low] at low'
  rw [fraction] at fraction'
  cases high'
  cases low'
  cases fraction'
  rfl

/-- The divisor that is programmed is the one that was asked for just if that has no more than twenty bits. -/
theorem rtUartConfigure_programs_iff (accepted : rtUartConfigure read freq serial cfg = some (device, channel, writes)) :
    Programs writes (freq.toNat / cfg.baudRate.toNat) ↔ freq.toNat / cfg.baudRate.toNat < 2 ^ 20 := by
  have programs := (rtUartConfigure_configured accepted).programs
  constructor
  · intro asked
    rw [← programs.unique asked]
    exact Nat.mod_lt _ (by decide)
  · intro small
    rw [Nat.mod_eq_of_lt small] at programs
    exact programs

end Configure

def silent : Writes → Register → UInt32 := fun _ _ => 0

def uart1 : RtSerialDevice := ⟨⟨115200, 8, 0, 0, 64⟩, some ⟨0x50210000, 11⟩⟩

theorem rtUartConfigure_programs_iff_115200 :
    ∃ writes, rtUartConfigure silent 195000000 (some uart1) ⟨115200, 8, 0, 0, 64⟩ = some (uart1, 0, writes) ∧
      (Programs writes ((195000000 : UInt32).toNat / (115200 : UInt32).toNat) ↔
        (195000000 : UInt32).toNat / (115200 : UInt32).toNat < 2 ^ 20) := by
  have accepted : rtUartConfigure silent 195000000 (some uart1) ⟨115200, 8, 0, 0, 64⟩ =
      some (uart1, 0, program silent (parts (195000000 / 115200)) 8 0 0) := rfl
  exact ⟨_, accepted, rtUartConfigure_programs_iff accepted⟩

/-- At 110 baud the quotient is 1772727, and what is programmed is 724151. -/
theorem rtUartConfigure_110 :
    ∃ device writes, rtUartConfigure silent 195000000 (some uart1) ⟨110, 8, 0, 0, 64⟩ = some (device, 0, writes) ∧
      (195000000 : UInt32).toNat / (110 : UInt32).toNat = 1772727 ∧ Programs writes 724151 ∧ ¬Programs writes 1772727 := by
  refine ⟨_, program silent (parts (195000000 / 110)) 8 0 0, rfl, by decide, ?_⟩
  have programs : Programs (program silent (parts (195000000 / 110)) 8 0 0) 724151 :=
    ⟨176, 203, 7, rfl, rfl, rfl, by decide, by decide, by decide, by decide⟩
  exact ⟨programs, fun asked => absurd (programs.unique asked) (by decide)⟩

end ArduinoK210.Serial
