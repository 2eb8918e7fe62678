/-!
# Timeouts

How long the driver waits for each kind of answer, in milliseconds.
-/

namespace EspWifi

/-- Timeouts in milliseconds, with the values the module is known to need. -/
structure Timeouts where
  /-- Plain commands. -/
  command : UInt32 := 1000
  /-- The start of a field in a response. -/
  expectStart : UInt32 := 1000
  /-- The end of a field whose start was seen. -/
  expectEnd : UInt32 := 500
  /-- The rest of a response after its field. -/
  drain : UInt32 := 2000
  /-- Joining a network. -/
  join : UInt32 := 20000
  /-- Setting up an access point. -/
  accessPoint : UInt32 := 10000
  /-- Setting a static address. -/
  staticIp : UInt32 := 2000
  /-- The first entry of a network scan. -/
  scan : UInt32 := 10000
  /-- Each field after that, and single fields elsewhere. -/
  field : UInt32 := 1000
  /-- Opening a link. -/
  connect : UInt32 := 5000
  /-- Closing a link. -/
  close : UInt32 := 4000
  /-- A ping. -/
  ping : UInt32 := 8000
  /-- The prompt before a payload. -/
  prompt : UInt32 := 1000
  /-- The transmitter, and the confirmation of a payload. -/
  send : UInt32 := 2000
  /-- The next byte of an inbound packet. -/
  data : UInt32 := 2000
  /-- The notice that follows a packet when its link was closed. -/
  closed : UInt32 := 500
  deriving DecidableEq

end EspWifi
