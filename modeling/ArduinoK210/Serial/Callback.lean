import ArduinoK210.Serial.UartHal

/-! Who is called when data arrives. The callback lives in the object and in the HAL's record, and `begin` clears the second. -/

namespace ArduinoK210.Serial

inductive SerialCall (C : Type) where
  | begin (baud config : UInt32) (rxPin txPin : Int8)
  | endSerial
  | onReceive (callback : Option C)

/-- What a sketch has asked for: the callback registered last, and whether a `begin` that reaches the HAL came after it. -/
structure Wanted (C : Type) where
  registered : Option C := none
  begun : Bool := false

variable {C σ : Type}

def Wanted.next (num : Nat) (wanted : Wanted C) : SerialCall C → Wanted C
  | .begin _ _ rxPin txPin => if (HardwareSerial.pins num rxPin txPin).isSome then { wanted with begun := true } else wanted
  | .endSerial => wanted
  | .onReceive callback => { registered := callback, begun := false }

def wanted (num : Nat) (calls : List (SerialCall C)) : Wanted C := calls.foldl (Wanted.next num) {}

namespace HardwareSerial
variable (os : RtDevice σ)

def perform (serial : HardwareSerial C σ) : SerialCall C → Option (HardwareSerial C σ)
  | .begin baud config rxPin txPin => serial.begin os baud config rxPin txPin
  | .endSerial => serial.endSerial os
  | .onReceive callback => some (serial.onReceive os callback)

def performAll : List (SerialCall C) → HardwareSerial C σ → Option (HardwareSerial C σ)
  | [], serial => some serial
  | call :: calls, serial => (serial.perform os call).bind (performAll calls)

def new (this : Address) (num : Nat) (fpioa : Gpio.Fpioa) (device : σ) : HardwareSerial C σ where
  this := this
  hal := { num, fpioa, device }

end HardwareSerial

variable {os : RtDevice σ} {uart next : HalUart σ} {serial : HardwareSerial C σ}

namespace HalUart

@[simp] theorem onDataRecv_num (callback : Option OnDataRecv) (userData : Option Address) (uart : HalUart σ) :
    (uart.onDataRecv os callback userData).1.num = uart.num := by
  unfold onDataRecv
  split
  · split <;> rfl
  · rfl

@[simp] theorem onDataRecv_dev (callback : Option OnDataRecv) (userData : Option Address) (uart : HalUart σ) :
    (uart.onDataRecv os callback userData).1.dev = uart.dev := by
  unfold onDataRecv
  split
  · split <;> rfl
  · rfl

private theorem onDataRecv_none (found : uart.dev = true) : (uart.onDataRecv os none none).1.rxNotify os = none := by
  rw [onDataRecv, if_pos found]
  exact ite_self _

private theorem onDataRecv_some (found : uart.dev = true) (callback : OnDataRecv) (userData : Address) :
    (uart.onDataRecv os (some callback) (some userData)).1.rxNotify os = some (callback, some userData) := by
  rw [onDataRecv, if_pos found]
  exact if_pos (os.notifies_setNotify true uart.device)

private theorem endUart_spec (ended : uart.endUart os = some next) : next.dev = false ∧ next.num = uart.num := by
  unfold endUart at ended
  split at ended
  · obtain ⟨device, _, same⟩ := Option.bind_eq_some_iff.mp ended
    cases same
    exact ⟨rfl, onDataRecv_num none none uart⟩
  · next absent =>
    cases ended
    exact ⟨Bool.eq_false_of_not_eq_true absent, rfl⟩

@[simp] theorem findDevice_num (bufferSize : UInt16) (uart : HalUart σ) : (uart.findDevice os bufferSize).num = uart.num := by
  unfold findDevice
  split <;> rfl

private theorem connect_spec {baudrate config : UInt32} (found : uart.dev = true) (connected : uart.connect os baudrate config = some next) :
    next.num = uart.num ∧ next.rxNotify os = none := by
  obtain ⟨device, _, connected⟩ := Option.bind_eq_some_iff.mp connected
  obtain ⟨device, _, same⟩ := Option.bind_eq_some_iff.mp connected
  cases same
  refine ⟨?_, onDataRecv_none found⟩
  rw [onDataRecv_num]

/-- `begin` leaves nothing registered with the device. -/
theorem beginUart_spec {baudrate config : UInt32} {rxPin txPin : Int8} {bufferSize : UInt16}
    (begun : uart.beginUart os baudrate config rxPin txPin bufferSize = some next) :
    next.num = uart.num ∧ (next.dev = true → next.rxNotify os = none) := by
  obtain ⟨idle, ended, begun⟩ := Option.bind_eq_some_iff.mp begun
  have num : idle.num = uart.num := by
    split at ended
    · exact (endUart_spec ended).2
    · cases ended
      rfl
  dsimp only at begun
  split at begun
  · next found =>
    obtain ⟨same_num, silent⟩ := connect_spec found begun
    exact ⟨same_num.trans ((findDevice_num _ _).trans num), fun _ => silent⟩
  · next absent =>
    cases begun
    exact ⟨(findDevice_num _ _).trans num, fun found => absurd found absent⟩

end HalUart

/-- The object remembers the registered callback. Once its device has been found, arriving data reaches it unless a `begin` came
in between. -/
structure Linked (os : RtDevice σ) (this : Address) (num : Nat) (wanted : Wanted C) (serial : HardwareSerial C σ) : Prop where
  own : serial.this = this
  same_num : serial.hal.num = num
  callback : serial.onRecvCallback = wanted.registered
  wired : serial.hal.dev = true → serial.uart = true ∧ num < uartDeviceMax ∧
    serial.arrive os = if wanted.begun then none else wanted.registered.map fun callback => (callback, this)

variable {this : Address} {num : Nat} {wanted : Wanted C}

private theorem Linked.begin (linked : Linked os this num wanted serial) {baud config : UInt32} {rxPin txPin : Int8}
    {begun : HardwareSerial C σ} (done : serial.begin os baud config rxPin txPin = some begun) :
    Linked os this num (wanted.next num (.begin baud config rxPin txPin)) begun := by
  obtain ⟨own, same_num, callback, wired⟩ := linked
  unfold HardwareSerial.begin at done
  rw [same_num] at done
  dsimp only [Wanted.next]
  split at done
  · next no_pins =>
    cases done
    rw [no_pins]
    exact ⟨own, same_num, callback, wired⟩
  · next pins =>
    rw [pins, Option.isSome_some, if_pos rfl]
    dsimp only at done
    rw [same_num] at done
    split at done
    · next outside =>
      cases done
      exact ⟨own, same_num, callback, fun found => absurd (wired found).2.1 (Nat.not_lt.mpr outside)⟩
    · next inside =>
      obtain ⟨hal, begun_hal, same⟩ := Option.bind_eq_some_iff.mp done
      cases same
      obtain ⟨hal_num, silent⟩ := HalUart.beginUart_spec begun_hal
      refine ⟨own, hal_num.trans same_num, callback, fun found => ⟨rfl, Nat.lt_of_not_le inside, ?_⟩⟩
      unfold HardwareSerial.arrive
      rw [silent found]
      rfl

private theorem Linked.endSerial (linked : Linked os this num wanted serial) {ended : HardwareSerial C σ}
    (done : serial.endSerial os = some ended) : Linked os this num wanted ended := by
  obtain ⟨own, same_num, callback, wired⟩ := linked
  obtain ⟨hal, ended_hal, same⟩ := Option.bind_eq_some_iff.mp done
  have closed : hal.dev = false ∧ hal.num = num := by
    split at ended_hal
    · obtain ⟨dev, ended_num⟩ := HalUart.endUart_spec ended_hal
      exact ⟨dev, ended_num.trans same_num⟩
    · next unset =>
      cases ended_hal
      exact ⟨Bool.eq_false_of_not_eq_true fun found => unset (wired found).1, same_num⟩
  cases same
  refine ⟨own, ?_, callback, fun found => ?_⟩
  · dsimp only
    split <;> split <;> exact closed.2
  · have open_dev : hal.dev = true := by
      dsimp only at found
      split at found <;> split at found <;> exact found
    rw [closed.1] at open_dev
    cases open_dev

private theorem Linked.onReceive (linked : Linked os this num wanted serial) (callback : Option C) :
    Linked os this num (wanted.next num (.onReceive callback)) (serial.onReceive os callback) := by
  obtain ⟨own, same_num, _, wired⟩ := linked
  unfold HardwareSerial.onReceive
  dsimp only
  split
  · cases callback with
    | none =>
      refine ⟨own, (HalUart.onDataRecv_num none none serial.hal).trans same_num, rfl, fun found => ?_⟩
      have dev := (HalUart.onDataRecv_dev none none serial.hal).symm.trans found
      refine ⟨(wired dev).1, (wired dev).2.1, ?_⟩
      unfold HardwareSerial.arrive
      rw [HalUart.onDataRecv_none dev]
      rfl
    | some callback =>
      refine ⟨own, (HalUart.onDataRecv_num _ _ serial.hal).trans same_num, rfl, fun found => ?_⟩
      have dev := (HalUart.onDataRecv_dev (some .onDateRecvCallBack) (some serial.this) serial.hal).symm.trans found
      refine ⟨(wired dev).1, (wired dev).2.1, ?_⟩
      unfold HardwareSerial.arrive
      rw [HalUart.onDataRecv_some dev, ← own]
      exact if_pos rfl
  · next unset => exact ⟨own, same_num, rfl, fun found => absurd (wired found).1 unset⟩

private theorem Linked.perform (linked : Linked os this num wanted serial) (call : SerialCall C) {next : HardwareSerial C σ}
    (done : serial.perform os call = some next) : Linked os this num (wanted.next num call) next := by
  cases call with
  | begin baud config rxPin txPin => exact linked.begin done
  | endSerial => exact linked.endSerial done
  | onReceive callback =>
    cases done
    exact linked.onReceive callback

private theorem Linked.performAll (linked : Linked os this num wanted serial) {calls : List (SerialCall C)} {final : HardwareSerial C σ}
    (done : serial.performAll os calls = some final) : Linked os this num (calls.foldl (Wanted.next num) wanted) final := by
  induction calls generalizing serial wanted with
  | nil =>
    cases done
    exact linked
  | cons call calls ih =>
    obtain ⟨next, first, rest⟩ := Option.bind_eq_some_iff.mp done
    exact ih (linked.perform call first) rest

private theorem Linked.new (this : Address) (num : Nat) (fpioa : Gpio.Fpioa) (device : σ) :
    Linked os this num {} (HardwareSerial.new this num fpioa device : HardwareSerial C σ) :=
  ⟨rfl, rfl, rfl, nofun⟩

/-- After any calls, data that arrives at an open port invokes the callback registered last, with the port's object, exactly when
that is none or no `begin` has come after the registration. -/
theorem arrive_registered_iff (os : RtDevice σ) (this : Address) (num : Nat) (fpioa : Gpio.Fpioa) (device : σ)
    (calls : List (SerialCall C)) (serial : HardwareSerial C σ)
    (done : (HardwareSerial.new this num fpioa device).performAll os calls = some serial) :
    (serial.hal.isOpened os = true →
      serial.arrive os = (Serial.wanted num calls).registered.map fun callback => (callback, this)) ↔
    (serial.hal.isOpened os = true →
      (Serial.wanted num calls).registered = none ∨ (Serial.wanted num calls).begun = false) := by
  have linked : Linked os this num (Serial.wanted num calls) serial := (Linked.new this num fpioa device).performAll done
  apply imp_congr_right
  intro opened
  obtain ⟨_, _, reached⟩ := linked.wired (Bool.and_eq_true_iff.mp opened).1
  rw [reached]
  cases begun : (Serial.wanted num calls).begun with
  | false => exact ⟨fun _ => Or.inr rfl, fun _ => rfl⟩
  | true =>
    constructor
    · intro none_called
      exact Or.inl (Option.map_eq_none_iff.mp none_called.symm)
    · rintro (no_callback | not_begun)
      · rw [no_callback]
        rfl
      · cases not_begun

/-- A device that is registered once, counts its openings and keeps the notification that it is given. -/
structure SerialDevice where
  registered : Bool := false
  refCount : Nat := 0
  notify : Bool := false
  config : SerialConfigure := {}

def SerialDevice.driver : RtDevice SerialDevice where
  find device := device.registered
  register bufsz device := { device with registered := true, config := { device.config with bufsz } }
  bufsz device := device.config.bufsz
  openDevice device := some { device with refCount := device.refCount + 1 }
  configure config device := some { device with config }
  setNotify wanted device := ({ device with notify := wanted }, true)
  close device := some { device with refCount := device.refCount - 1 }
  opened device := decide (0 < device.refCount)
  notifies device := device.notify
  notifies_setNotify _ _ := rfl

def unrouted : Gpio.Fpioa where
  chSel _ := 0
  pinFuncMap _ := Gpio.funcMax

/-- A callback that is registered on the open port is called. -/
theorem arrive_registered_open :
    ∃ serial, (HardwareSerial.new 4096 0 unrouted {}).performAll SerialDevice.driver
        [.begin 115200 0x413 (-1) (-1), .onReceive (some 7)] = some serial ∧
      serial.hal.isOpened SerialDevice.driver = true ∧ serial.arrive SerialDevice.driver = some (7, 4096) := by
  refine ⟨_, rfl, rfl, ?_⟩
  exact (arrive_registered_iff SerialDevice.driver 4096 0 unrouted {} [.begin 115200 0x413 (-1) (-1), .onReceive (some 7)] _ rfl).mpr
    (fun _ => Or.inr rfl) rfl

/-- Registered before `begin`, or before a second `begin`, the callback is not called. -/
theorem arrive_forgotten :
    let early : List (SerialCall Nat) := [.onReceive (some 7), .begin 115200 0x413 (-1) (-1)]
    let again : List (SerialCall Nat) :=
      [.begin 115200 0x413 (-1) (-1), .onReceive (some 7), .endSerial, .begin 9600 0x413 (-1) (-1)]
    ∀ calls ∈ [early, again], ∃ serial, (HardwareSerial.new 4096 0 unrouted {}).performAll SerialDevice.driver calls = some serial ∧
      serial.hal.isOpened SerialDevice.driver = true ∧ (Serial.wanted 0 calls).registered = some 7 ∧
      serial.arrive SerialDevice.driver = none := by
  intro early again calls member
  rcases List.mem_cons.mp member with rfl | member
  · exact ⟨_, rfl, rfl, rfl, rfl⟩
  · cases List.mem_singleton.mp member
    exact ⟨_, rfl, rfl, rfl, rfl⟩

end ArduinoK210.Serial
