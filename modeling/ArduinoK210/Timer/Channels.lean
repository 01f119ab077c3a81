import ArduinoK210.Gpio.Fpioa
import ArduinoK210.Lib.Run
import Mathlib.Data.Fintype.Card
import Mathlib.Data.Fin.Tuple.Basic

/-! The table of the twelve timer channels, shared by Tone pins and Tickers. A
Ticker's channel is marked with a placeholder number in the pin column; six of
those numbers are also pins that a Tone can use. -/

namespace ArduinoK210.Timer
open Gpio

/-- `timer_dev_chn_map[i].pin`, -1 when the channel is free, and the flags of
`_pin_place_holder`. -/
structure ChannelMap where
  pin : Fin 12 → Int
  placeHolder : Fin 12 → Bool
  fpioa : Fpioa

def placeHolderPin (index : Fin 12) : Int := 42 + index.val

namespace ChannelMap

def setPin (index : Fin 12) (pin : Int) (map : ChannelMap) : ChannelMap :=
  { map with pin := fun i => if i = index then pin else map.pin i }

def setPlaceHolder (index : Fin 12) (used : Bool) (map : ChannelMap) : ChannelMap :=
  { map with placeHolder := fun i => if i = index then used else map.placeHolder i }

def getFreeTimerChn (pin : Int) (map : ChannelMap) : Option (Fin 12) :=
  match Fin.find? (fun i => decide (pin = map.pin i)) with
  | some index => some index
  | none => Fin.find? (fun i => decide (-1 = map.pin i))

def halTimerSetPinFunc (pin : Nat) (map : ChannelMap) : Option (Fin 12) × ChannelMap :=
  match map.getFreeTimerChn pin with
  | some chn =>
    (some chn, { map.setPin chn pin with
      fpioa := map.fpioa.halFpioaSetPinFunc pin (funcTimer0Toggle1 + chn.val) })
  | none => (none, map)

/-- The loop has no break: it clears every row that carries the pin. -/
def halTimerClrPinFunc (pin : Nat) (map : ChannelMap) : ChannelMap :=
  { map with
    pin := fun i => if (pin : Int) = map.pin i then -1 else map.pin i
    fpioa := if ∃ i, (pin : Int) = map.pin i then map.fpioa.halFpioaClrPinFunc pin else map.fpioa }

def firstPlaceHolder (map : ChannelMap) : Option (Fin 12) := Fin.find? (fun i => !map.placeHolder i)

/-- Without a free placeholder the source still looks a channel up for pin 127,
and then refuses because it has no placeholder to mark. -/
def halTimerGetFreeChn (map : ChannelMap) : Option (Fin 12) × ChannelMap :=
  match map.firstPlaceHolder with
  | none => (none, map)
  | some index =>
    match map.getFreeTimerChn (placeHolderPin index) with
    | some chn => (some chn, (map.setPlaceHolder index true).setPin chn (placeHolderPin index))
    | none => (none, map)

def halTimerReleaseChn (chn : Fin 12) (map : ChannelMap) : ChannelMap :=
  let releasedPin := map.pin chn
  let freed := match Fin.find? (fun i => decide (releasedPin = map.pin i)) with
    | some index => map.setPin index (-1)
    | none => map
  match Fin.find? (fun i => decide (releasedPin = placeHolderPin i)) with
  | some index => freed.setPlaceHolder index false
  | none => freed

end ChannelMap

/-- The table with what its clients hold: the channel of each sounding Tone pin
and the channels that Tickers obtained and have not released. -/
structure Clients where
  map : ChannelMap
  tone : Nat → Option (Fin 12)
  tickers : List (Fin 12)

namespace Clients

inductive Op where
  | setPinFunc (pin : Fin 48)
  | clrPinFunc (pin : Fin 48)
  | getFreeChn
  | releaseChn (chn : Fin 12)

def setPinFunc (pin : Nat) (clients : Clients) : Clients :=
  { clients with
    map := (clients.map.halTimerSetPinFunc pin).2
    tone := fun p => if p = pin then ((clients.map.halTimerSetPinFunc pin).1).or (clients.tone p) else clients.tone p }

def clrPinFunc (pin : Nat) (clients : Clients) : Clients :=
  { clients with
    map := clients.map.halTimerClrPinFunc pin
    tone := fun p => if p = pin then none else clients.tone p }

def getFreeChn (clients : Clients) : Clients :=
  { clients with
    map := clients.map.halTimerGetFreeChn.2
    tickers := clients.map.halTimerGetFreeChn.1.toList ++ clients.tickers }

def releaseChn (chn : Fin 12) (clients : Clients) : Clients :=
  { clients with map := clients.map.halTimerReleaseChn chn, tickers := clients.tickers.erase chn }

def perform : Op → Clients → Clients
  | .setPinFunc pin, clients => clients.setPinFunc pin
  | .clrPinFunc pin, clients => clients.clrPinFunc pin
  | .getFreeChn, clients => clients.getFreeChn
  | .releaseChn chn, clients => clients.releaseChn chn

def initial (fpioa : Fpioa) : Clients :=
  ⟨⟨fun _ => -1, fun _ => false, fpioa⟩, fun _ => none, []⟩

end Clients
end ArduinoK210.Timer
