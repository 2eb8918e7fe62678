import EspWifi.Firmware
import EspWifi.Session.Action
import EspWifi.Session.Bench
import EspWifi.Session.Rig
import EspWifi.Proofs.At.Scan
import EspWifi.Proofs.Board.Transmit
import EspWifi.Proofs.Outcome
import EspWifi.Proofs.Text.Decimal
import EspWifi.Proofs.At.Reading
import EspWifi.Proofs.At.Numerals
import EspWifi.Proofs.At.Spelling
import EspWifi.Proofs.Modem.Frame
import EspWifi.Proofs.Modem.Header
import EspWifi.Proofs.Modem.Inbox
import EspWifi.Proofs.Modem.Delivery
import EspWifi.Proofs.At.Commands
import EspWifi.Proofs.Modem.Sending
import EspWifi.Proofs.Modem.Listing
import EspWifi.Proofs.Modem.Unquote
import EspWifi.Proofs.Modem.Unread
import EspWifi.Proofs.Modem.Attribution
import EspWifi.Proofs.Board.Receive
import EspWifi.Proofs.Net.RemoteClose
import EspWifi.Proofs.Link.Twins
import EspWifi.Proofs.Link.Queued
import EspWifi.Proofs.At.StaleInput
import EspWifi.Proofs.At.Patience
import EspWifi.Proofs.At.Waiting
import EspWifi.Proofs.At.Field
import EspWifi.Proofs.At.Whole
import EspWifi.Proofs.At.Relative
import EspWifi.Proofs.Modem.Relative
import EspWifi.Proofs.Net.Relative
import EspWifi.Proofs.Session.Relative
import EspWifi.Proofs.Session.AnyStart
import EspWifi.Proofs.At.Lines
import EspWifi.Proofs.Modem.Script
import EspWifi.Proofs.Modem.Parameters
import EspWifi.Proofs.Modem.CallerText
import EspWifi.Proofs.Net.Slots
import EspWifi.Proofs.Net.Ownership
import EspWifi.Proofs.Net.Leaks
import EspWifi.Proofs.Net.Exclusive
import EspWifi.Proofs.Net.Stray
import EspWifi.Proofs.Session.Stream
import EspWifi.Proofs.At.NaiveScan
import EspWifi.Proofs.Modem.Notice
import EspWifi.Proofs.Session.Journal
import EspWifi.Proofs.Modem.Patience
import EspWifi.Proofs.Modem.Prompt
import EspWifi.Proofs.Firmware.Serve
import EspWifi.Proofs.Modem.Genuine
import EspWifi.Proofs.Modem.Joined
import EspWifi.Proofs.Modem.LinkReport
import EspWifi.Proofs.Net.Evidence
import EspWifi.Proofs.Net.Opening
import EspWifi.Proofs.At.Transmission
import EspWifi.Proofs.Returning
import EspWifi.Proofs.At.Pace
import EspWifi.Proofs.Net.Sends
import EspWifi.Proofs.Net.Broadcast
import EspWifi.Proofs.Modem.Attention
import EspWifi.Proofs.Modem.Stored
import EspWifi.Proofs.Net.Flush
import EspWifi.Proofs.Net.Flushed
import EspWifi.Proofs.At.Recall
import EspWifi.Proofs.Link.QueueLog
import EspWifi.Proofs.At.OneNumber
import EspWifi.Proofs.Session.Timeline
import EspWifi.Proofs.At.Pauses
import EspWifi.Proofs.Modem.Garbage
import EspWifi.Proofs.Net.TableHistory
