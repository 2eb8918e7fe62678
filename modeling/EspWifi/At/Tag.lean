import EspWifi.Bytes

/-!
# Response tags

The module ends every response with one of five tags. This module also holds the other fixed byte
sequences of the command protocol.
-/

namespace EspWifi

/-- The tags that end a response. -/
inductive Tag where
  | ok | error | fail | sendOk | connect
  deriving DecidableEq

namespace Tag

/-- All tags, in the order in which a scan tests them. -/
def all : List Tag := [ok, error, fail, sendOk, connect]

/-- Position of a tag in `all`. -/
def index : Tag → Nat
  | ok => 0
  | error => 1
  | fail => 2
  | sendOk => 3
  | connect => 4

/-- The bytes that end a response with this tag. -/
def text : Tag → String
  | ok => "\r\nOK\r\n"
  | error => "\r\nERROR\r\n"
  | fail => "\r\nFAIL\r\n"
  | sendOk => "\r\nSEND OK\r\n"
  | connect => " CONNECT\r\n"

/-- The bytes that end a response with this tag. -/
def bytes (t : Tag) : Bytes := utf8 t.text

/-- The name of a tag in log records and error texts. -/
def name : Tag → String
  | ok => "Ok"
  | error => "Error"
  | fail => "Fail"
  | sendOk => "SendOk"
  | connect => "Connect"

end Tag

/-- Ends every command line. -/
def lineEnd : String := "\r\n"

/-- What the module sends when it is ready for the payload of a send command. -/
def sendPrompt : String := ">"

/-- Announces an inbound packet. -/
def packetPreamble : String := "+IPD,"

/-- Follows the last byte of a packet when the remote side has closed the link. -/
def closedTrailer : String := ",CLOSED"

end EspWifi
