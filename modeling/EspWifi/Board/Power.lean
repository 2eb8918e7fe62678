import EspWifi.Board.Pins
import EspWifi.Link.Device

/-!
# Power of the module

Two lines switch the module: one enables it, the other holds it in reset while it is low.
-/

namespace EspWifi.Power

variable {σ : Type} [Device σ] [Pins σ]

/-- The pin that enables the module. -/
def enable : Pin := .pa8

/-- The pin that holds the module in reset while it is low. -/
def reset : Pin := .pa10

/-- Width of a reset pulse in milliseconds. -/
def resetPulse : UInt32 := 10

/-- Take both lines, with the module disabled and in reset. -/
def attach : Run σ Unit := do
  Pins.makeOutput enable
  Pins.makeOutput reset
  Pins.drive enable false
  Pins.drive reset false

/-- Hold the module in reset for the width of a pulse. -/
def hardReset : Run σ Unit := do
  Pins.drive reset false
  Device.delay resetPulse
  Pins.drive reset true

/-- Enable the module and release it from reset. -/
def on : Run σ Unit := do
  Pins.drive enable true
  hardReset
  logInfo "ESP8266 powered on"

/-- Disable the module. -/
def off : Run σ Unit := Pins.drive enable false

end EspWifi.Power
