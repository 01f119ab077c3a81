import ArduinoK210.Spi.Controllers
import ArduinoK210.Lib.Run

/-! Who owns a controller. `SPIClass` looks at the owner table and at both flags; the
TFT and the SD card start, and the TFT stops, without looking at the table. -/

namespace ArduinoK210.Spi.Controllers
open Gpio

inductive Client where
  | spiClass (id : Nat)
  | tft
  | sdcard
  deriving DecidableEq

def Owns (spi : Controllers) : Client → Nat → Prop
  | .spiClass id, bus => (spi.objects id).ready = true ∧ (spi.objects id).bus = bus
  | .tft, bus => spi.spi0InUse = true ∧ bus = 0
  | .sdcard, bus => spi.sdcardUseHwSpi1 = true ∧ bus = 1

def SingleOwner (spi : Controllers) : Prop :=
  ∀ bus client other, spi.Owns client bus → spi.Owns other bus → client = other

def Op.client : Op → Client
  | .spiBegin id _ _ _ _ _ | .spiEnd id => .spiClass id
  | .tftBegin _ _ _ _ | .tftEnd => .tft
  | .hardSpiInit _ _ _ _ => .sdcard

def Op.bus : Op → Controllers → Nat
  | .spiBegin id _ _ _ _ _, spi | .spiEnd id, spi => (spi.objects id).bus
  | .tftBegin _ _ _ _, _ | .tftEnd, _ => 0
  | .hardSpiInit _ _ _ _, _ => 1

def Op.Starts : Op → Prop
  | .spiBegin _ _ _ _ _ _ | .tftBegin _ _ _ _ | .hardSpiInit _ _ _ _ => True
  | .spiEnd _ | .tftEnd => False

/-- A controller that another client owns keeps its registers and its clock, and a
start on it leaves the routing of the pins as it was. -/
def Respects (pll0 : Nat) (op : Op) (spi : Controllers) : Prop :=
  ∀ other, other ≠ op.client → spi.Owns other (op.bus spi) →
    (perform pll0 op spi).ports (op.bus spi) = spi.ports (op.bus spi) ∧
      (op.Starts → (perform pll0 op spi).fpioa = spi.fpioa)

def Good (pll0 : Nat) (op : Op) (spi : Controllers) : Prop := SingleOwner (perform pll0 op spi) ∧ Respects pll0 op spi

/-- The TFT starts and stops only while no object is ready on SPI0, and the SD card
starts only while none is ready on SPI1. -/
def Unowned : Op → Controllers → Prop
  | .tftBegin clkPin csPin _ _, spi => clkPin ≠ -1 → csPin ≠ -1 → ∀ id, ¬ spi.Owns (.spiClass id) 0
  | .tftEnd, spi => ∀ id, ¬ spi.Owns (.spiClass id) 0
  | .hardSpiInit _ _ _ _, spi => ∀ id, ¬ spi.Owns (.spiClass id) 1
  | .spiBegin _ _ _ _ _ _, _ | .spiEnd _, _ => True

/-- The owner table names the ready objects, a flag excludes them, and the clock of
a controller with a ready object runs. -/
structure Kept (spi : Controllers) : Prop where
  owner : ∀ bus id, spi.owners bus = some id ↔ spi.Owns (.spiClass id) bus
  tft : spi.spi0InUse = true → spi.owners 0 = none
  sdcard : spi.sdcardUseHwSpi1 = true → spi.owners 1 = none
  clock : ∀ id, (spi.objects id).ready = true → (spi.ports (spi.objects id).bus).clockEn = true

variable {spi : Controllers} {pll0 : Nat}

private theorem start_kept (ports : Nat → SpiPort) (fpioa : Fpioa) (bus : Nat → Nat) (settings : Nat → SpiSettings) :
    Kept (start ports fpioa bus settings) := by
  refine ⟨fun bus id => ⟨?_, ?_⟩, ?_, ?_, ?_⟩
  · intro impossible
    cases impossible
  · intro ⟨impossible, _⟩
    cases impossible
  · intro impossible
    cases impossible
  · intro impossible
    cases impossible
  · intro id impossible
    cases impossible

private theorem Kept.single (kept : Kept spi) : SingleOwner spi := by
  intro bus client other one two
  cases client with
  | spiClass id =>
    have owner := (kept.owner bus id).mpr one
    cases other with
    | spiClass next =>
      have also := (kept.owner bus next).mpr two
      cases Option.some.inj (owner.symm.trans also)
      rfl
    | tft =>
      obtain ⟨inUse, rfl⟩ := two
      cases owner.symm.trans (kept.tft inUse)
    | sdcard =>
      obtain ⟨inUse, rfl⟩ := two
      cases owner.symm.trans (kept.sdcard inUse)
  | tft =>
    obtain ⟨inUse, rfl⟩ := one
    cases other with
    | spiClass next =>
      have owner := (kept.owner 0 next).mpr two
      cases owner.symm.trans (kept.tft inUse)
    | tft => rfl
    | sdcard => cases two.2
  | sdcard =>
    obtain ⟨inUse, rfl⟩ := one
    cases other with
    | spiClass next =>
      have owner := (kept.owner 1 next).mpr two
      cases owner.symm.trans (kept.sdcard inUse)
    | tft => cases two.2
    | sdcard => rfl

/-- A `begin` is refused, or it finds its controller free and takes it. -/
inductive Begins (id : Nat) (spi after : Controllers) : Prop where
  | refused (same : after = spi)
  | taken (free : spi.owners (spi.objects id).bus = none)
      (quiet : ∀ other, ¬ spi.Owns other (spi.objects id).bus)
      (owners : after.owners = Function.update spi.owners (spi.objects id).bus (some id))
      (objects : ∃ pins, after.objects = Function.update spi.objects id { spi.objects id with ready := true, pins })
      (ports : ∃ port : SpiPort, port.clockEn = true ∧ after.ports = Function.update spi.ports (spi.objects id).bus port)
      (flags : after.spi0InUse = spi.spi0InUse ∧ after.sdcardUseHwSpi1 = spi.sdcardUseHwSpi1)

private theorem Kept.begins (kept : Kept spi) (pll0 id : Nat) (sck miso mosi cs : Int8) (mutex : Bool) :
    Begins id spi (spi.spiBegin pll0 id sck miso mosi cs mutex) := by
  simp only [spiBegin]
  split
  next => exact .refused rfl
  split
  next => exact .refused rfl
  split
  next => exact .refused rfl
  next unflagged =>
    split
    next => exact .refused rfl
    next unowned =>
      have free : spi.owners (spi.objects id).bus = none := Classical.not_not.mp unowned
      split
      next =>
        apply Begins.refused
        simp only [Function.update_idem, ← free, Function.update_eq_self]
      next =>
        refine .taken free (fun other owns => ?_) ?_ ?_ ?_ ?_
        · cases other with
          | spiClass next => cases free.symm.trans ((kept.owner _ next).mpr owns)
          | tft => exact unflagged (.inl ⟨owns.2, owns.1⟩)
          | sdcard => exact unflagged (.inr ⟨owns.2, owns.1⟩)
        · simp [configure]
        · exact ⟨[sck, miso, mosi, cs], by simp [configure]⟩
        · refine ⟨((spi.ports (spi.objects id).bus).spiInit (spi.objects id).settings.dataMode .standard 8 0).spiSetClkRate
            pll0 (spi.objects id).settings.clock, rfl, by simp [configure]⟩
        · simp [configure]

private theorem Begins.kept {id : Nat} {after : Controllers} (begins : Begins id spi after) (kept : Kept spi) : Kept after := by
  cases begins with
  | refused same => exact same ▸ kept
  | taken free quiet owners objects ports flags =>
    obtain ⟨pins, objects⟩ := objects
    obtain ⟨port, enabled, ports⟩ := ports
    have idle : (spi.objects id).ready ≠ true := fun ready => quiet (.spiClass id) ⟨ready, rfl⟩
    refine ⟨fun bus other => ?_, fun inUse => ?_, fun inUse => ?_, fun other ready => ?_⟩
    · rw [owners, Owns, objects]
      by_cases here : bus = (spi.objects id).bus
      · subst here
        rw [Function.update_self]
        by_cases same : other = id
        · simp [same]
        · rw [Function.update_of_ne same]
          exact ⟨fun equal => absurd (Option.some.inj equal).symm same, fun owns => absurd owns (quiet (.spiClass other))⟩
      · rw [Function.update_of_ne here, kept.owner bus other]
        by_cases same : other = id
        · subst same
          simp only [Owns, Function.update_self, true_and]
          exact ⟨fun owns => absurd owns.2.symm here, fun equal => absurd equal.symm here⟩
        · rw [Function.update_of_ne same]
          exact Iff.rfl
    · rw [flags.1] at inUse
      rw [owners, Function.update_of_ne fun here => quiet .tft ⟨inUse, here.symm⟩]
      exact kept.tft inUse
    · rw [flags.2] at inUse
      rw [owners, Function.update_of_ne fun here => quiet .sdcard ⟨inUse, here.symm⟩]
      exact kept.sdcard inUse
    · rw [objects] at ready ⊢
      rw [ports]
      by_cases same : other = id
      · subst same
        simp only [Function.update_self, enabled]
      · rw [Function.update_of_ne same] at ready ⊢
        rw [Function.update_of_ne fun here => quiet (.spiClass other) ⟨ready, here⟩]
        exact kept.clock other ready

private theorem Kept.spiEnd (kept : Kept spi) (id : Nat) : Kept (spi.spiEnd id) := by
  simp only [Controllers.spiEnd]
  split
  next ready =>
    have owner := (kept.owner (spi.objects id).bus id).mpr ⟨ready, rfl⟩
    refine ⟨fun bus other => ?_, fun inUse => ?_, fun inUse => ?_, fun other running => ?_⟩
    · simp only [Owns]
      by_cases here : bus = (spi.objects id).bus
      · subst here
        rw [Function.update_self]
        refine ⟨fun impossible => (by cases impossible), fun ⟨active, same⟩ => ?_⟩
        by_cases equal : other = id
        · subst equal
          simp at active
        · rw [Function.update_of_ne equal] at active same
          exact absurd (Option.some.inj (((kept.owner _ other).mpr ⟨active, same⟩).symm.trans owner)) equal
      · rw [Function.update_of_ne here, kept.owner bus other]
        by_cases equal : other = id
        · subst equal
          simp only [Owns, Function.update_self, Bool.false_eq_true, false_and, iff_false]
          exact fun owns => here owns.2.symm
        · rw [Function.update_of_ne equal]
          exact Iff.rfl
    · have free := kept.tft inUse
      simp only [Function.update_apply, free, ite_self]
    · have free := kept.sdcard inUse
      simp only [Function.update_apply, free, ite_self]
    · by_cases equal : other = id
      · subst equal
        simp at running
      · simp only [Function.update_of_ne equal] at running ⊢
        have apart : (spi.objects other).bus ≠ (spi.objects id).bus := by
          intro same
          exact equal (Option.some.inj (((kept.owner _ other).mpr ⟨running, same⟩).symm.trans owner))
        rw [Function.update_of_ne apart]
        exact kept.clock other running
  next => exact kept

/-- The table is free where no object is ready. -/
theorem Kept.free (kept : Kept spi) {bus : Nat} (unowned : ∀ id, ¬ spi.Owns (.spiClass id) bus) :
    spi.owners bus = none := by
  cases owner : spi.owners bus with
  | none => rfl
  | some id => exact absurd ((kept.owner bus id).mp owner) (unowned id)

/-- A client that is no object may change the registers of a controller without
ready objects, and flags that exclude nobody. -/
theorem Kept.other {after : Controllers} {bus : Nat} {port : SpiPort} (kept : Kept spi)
    (unowned : ∀ id, ¬ spi.Owns (.spiClass id) bus) (owners : after.owners = spi.owners)
    (objects : after.objects = spi.objects) (ports : after.ports = Function.update spi.ports bus port)
    (tft : after.spi0InUse = true → spi.owners 0 = none)
    (sdcard : after.sdcardUseHwSpi1 = true → spi.owners 1 = none) : Kept after := by
  refine ⟨fun wanted id => ?_, fun inUse => owners ▸ tft inUse, fun inUse => owners ▸ sdcard inUse, fun id ready => ?_⟩
  · rw [owners, Owns, objects]
    exact kept.owner wanted id
  · rw [objects] at ready ⊢
    rw [ports, Function.update_of_ne fun here => unowned id ⟨ready, here⟩]
    exact kept.clock id ready

private theorem Kept.perform (kept : Kept spi) (op : Op) (unowned : Unowned op spi) : Kept (perform pll0 op spi) := by
  cases op with
  | spiBegin id sck miso mosi cs mutex => exact (kept.begins pll0 id sck miso mosi cs mutex).kept kept
  | spiEnd id => exact kept.spiEnd id
  | tftBegin clkPin csPin dcPin freq =>
    simp only [Controllers.perform, halTftBegin]
    split
    next => exact kept
    next pins =>
      have alone := unowned (fun clk => pins (.inl clk)) (fun cs => pins (.inr cs))
      exact kept.other alone rfl rfl rfl (fun _ => kept.free alone) kept.sdcard
  | tftEnd => exact kept.other unowned rfl rfl rfl (fun inUse => by cases inUse) kept.sdcard
  | hardSpiInit sck miso mosi cs => exact kept.other unowned rfl rfl rfl kept.tft fun _ => kept.free unowned

private theorem Kept.respects (kept : Kept spi) (op : Op) (unowned : Unowned op spi) : Respects pll0 op spi := by
  intro other different owns
  cases op with
  | spiBegin id sck miso mosi cs mutex =>
    cases kept.begins pll0 id sck miso mosi cs mutex with
    | refused same => simp only [Controllers.perform, same, true_and, implies_true]
    | taken free quiet => exact absurd owns (quiet other)
  | spiEnd id =>
    refine ⟨?_, fun impossible => impossible.elim⟩
    simp only [Controllers.perform, Controllers.spiEnd]
    split
    next ready => exact absurd (kept.single _ other (.spiClass id) owns ⟨ready, rfl⟩) different
    next => rfl
  | tftBegin clkPin csPin dcPin freq =>
    simp only [Controllers.perform, halTftBegin]
    split
    next => exact ⟨rfl, fun _ => rfl⟩
    next pins =>
      have alone := unowned (fun clk => pins (.inl clk)) (fun cs => pins (.inr cs))
      cases other with
      | spiClass id => exact absurd owns (alone id)
      | tft => exact absurd rfl different
      | sdcard => cases owns.2
  | tftEnd =>
    cases other with
    | spiClass id => exact absurd owns (unowned id)
    | tft => exact absurd rfl different
    | sdcard => cases owns.2
  | hardSpiInit sck miso mosi cs =>
    cases other with
    | spiClass id => exact absurd owns (unowned id)
    | tft => cases owns.2
    | sdcard => exact absurd rfl different

private theorem Kept.good_iff (op : Op) (spi : Controllers) (kept : Kept spi) : Good pll0 op spi ↔ Unowned op spi := by
  refine ⟨fun ⟨single, respects⟩ => ?_, fun unowned => ⟨(kept.perform op unowned).single, kept.respects op unowned⟩⟩
  cases op with
  | spiBegin id sck miso mosi cs mutex => trivial
  | spiEnd id => trivial
  | tftBegin clkPin csPin dcPin freq =>
    intro clk cs id owns
    simp only [Controllers.perform, halTftBegin, clk, cs, or_self, if_false] at single
    cases single 0 (.spiClass id) .tft owns ⟨rfl, rfl⟩
  | tftEnd =>
    intro id owns
    have unchanged := (respects (.spiClass id) (fun same => by cases same) owns).1
    have running := kept.clock id owns.1
    rw [owns.2] at running
    have stopped := congrArg SpiPort.clockEn unchanged
    simp only [Controllers.perform, halTftEnd, Op.bus, Function.update_self, running] at stopped
    cases stopped
  | hardSpiInit sck miso mosi cs =>
    intro id owns
    cases single 1 (.spiClass id) .sdcard owns ⟨rfl, rfl⟩

/-- Every step of a run leaves each controller with one owner at most and respects
the owners it finds, if and only if the TFT and the SD card stay off controllers
on which an object is ready. -/
theorem controllers_owned_iff (pll0 : Nat) (ops : List Op) (ports : Nat → SpiPort) (fpioa : Fpioa) (bus : Nat → Nat)
    (settings : Nat → SpiSettings) :
    Run.Guarded (perform pll0) (Good pll0) ops (start ports fpioa bus settings) ↔
      Run.Guarded (perform pll0) Unowned ops (start ports fpioa bus settings) :=
  Run.guarded_congr Kept.good_iff (fun op _ kept unowned => kept.perform op unowned) ops _
    (start_kept ports fpioa bus settings)

theorem tftBegin_takes_owned :
    ¬ ∀ (pll0 : Nat) (ops : List Op) (ports : Nat → SpiPort) (fpioa : Fpioa) (bus : Nat → Nat)
      (settings : Nat → SpiSettings), Run.Guarded (perform pll0) (Good pll0) ops (start ports fpioa bus settings) := by
  intro claimed
  obtain ⟨_, ⟨single, _⟩, _⟩ := claimed 800000000 [.spiBegin 0 20 21 22 23 true, .tftBegin 39 36 38 20000000]
    (fun _ => ⟨false, 0, 0, 0, 0, 0, 0, 0, 0, 0, 0, 0⟩) ⟨fun _ => funcResv0, fun _ => funcMax⟩ (fun _ => 0)
    (fun _ => ⟨1000000, 0⟩)
  cases single 0 (.spiClass 0) .tft ⟨by decide +kernel, by decide +kernel⟩ ⟨rfl, rfl⟩

end ArduinoK210.Spi.Controllers
