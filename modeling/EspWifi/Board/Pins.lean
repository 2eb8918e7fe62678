import EspWifi.Log

/-!
# Pins

The pins of the board that are used, and the lamp that hangs on one of them.

* `Pins σ`: a board `σ` whose pins can be driven.
* `Lamp`: a lamp that is lit by one of the two levels of its pin.
-/

namespace EspWifi

/-- The pins in use. -/
inductive Pin where
  | pa2 | pa3 | pa8 | pa10 | pb0 | pd8 | pd9
  deriving DecidableEq

namespace Pin

def name : Pin → String
  | pa2 => "PA2"
  | pa3 => "PA3"
  | pa8 => "PA8"
  | pa10 => "PA10"
  | pb0 => "PB0"
  | pd8 => "PD8"
  | pd9 => "PD9"

end Pin

/-- A board whose pins can be made outputs and driven high or low. -/
class Pins (σ : Type) where
  makeOutput : Pin → Run σ Unit
  drive : Pin → Bool → Run σ Unit

/-- A lamp on a pin. It remembers whether it is lit. -/
structure Lamp where
  pin : Pin
  /-- The lamp is lit when its pin is high. -/
  activeHigh : Bool
  isOn : Bool := false
  deriving DecidableEq

namespace Lamp

variable {σ : Type} [Pins σ]

/-- The level of the pin for a state of the lamp. -/
def level (l : Lamp) (on : Bool) : Bool := l.activeHigh == on

/-- A lamp on a pin, switched off. -/
def attach (pin : Pin) (activeHigh : Bool) : Run σ Lamp := do
  let lamp : Lamp := { pin, activeHigh }
  Pins.makeOutput pin
  Pins.drive pin (lamp.level false)
  return lamp

/-- Switch a lamp on or off. -/
def set (l : Lamp) (on : Bool) : Run σ Lamp := do
  Pins.drive l.pin (l.level on)
  return { l with isOn := on }

/-- Switch a lamp that is off on, and one that is on off. -/
def toggle (l : Lamp) : Run σ Lamp := l.set !l.isOn

end Lamp

end EspWifi
