import EspWifi.Net.Server
import EspWifi.Net.Udp
import EspWifi.Session.Reply

/-!
# Sessions

A session is a network with one server and any number of clients and datagram sockets, on which
operations of every layer are carried out one after the other.

* `EngineAction`, `DriverAction`, `WifiAction`, `TableAction`, `ClientAction`, `ServerAction`,
  `UdpAction`: the operations of each layer.
* `Session.perform`: carry out an operation.
-/

namespace EspWifi

/-- Operations of the command engine. -/
inductive EngineAction where
  | request (command : String) (timeout : UInt32)
  | requestOk (command : String) (timeout : UInt32)
  | queryField (command : String) (start stop : Bytes) (m : Nat)
  | awaitTag (timeout : UInt32) (tag : Option Bytes) (known : Bool)
  | skipPast (tag : Bytes) (timeout : UInt32)
  | transmit (data : Bytes)
  | transmitLine (line : String)
  | drain (warn : Bool)
  | awaitByte (timeout : UInt32)
  | awaitPeek (timeout : UInt32)
  | readInt
  | window
  | endsWith (tag : Bytes)
  | extract (m skip : Nat)
  | takeDropped
  | timeouts
  | takeErrors
  | available
  | millis
  | elapsed (start : UInt32)
  | readPacket

/-- Operations of the module driver. -/
inductive DriverAction where
  | bringUp
  | restart
  | join (ssid pass : String)
  | openAccessPoint (ssid pass : String) (channel : UInt8) (encryption : Encryption)
    (mode : WifiMode)
  | leave
  | setStationAddress (ip : Ipv4)
  | setAccessPointAddress (ip : Ipv4)
  | status
  | isListed (link : UInt8)
  | macAddress
  | stationAddress
  | accessPointAddress
  | netmask
  | gateway
  | joinedSsid
  | joinedBssid
  | joinedRssi
  | readVersion
  | cachedVersion
  | listNetworks
  | networks
  | network (i : Nat)
  | ping (host : String)
  | listen (port : UInt16)
  | openLink (host : String) (port : UInt16) (link : UInt8) (transport : Transport)
  | closeLink (link : UInt8)
  | available (link : Option UInt8)
  | receiveByte (link : UInt8) (peek : Bool)
  | receive (link : UInt8) (n : Nat)
  | sendBytes (link : UInt8) (data : Bytes)
  | sendText (link : UInt8) (text : String) (crlf : Bool)
  | sendDatagram (link : UInt8) (host : String) (port : UInt16) (data : Bytes)
  | remoteIp
  | remotePort
  | delay (ms : UInt32)

/-- Operations of the network; those it passes on unchanged are driver operations. -/
inductive WifiAction where
  | bringUp
  | join (ssid pass : String)
  | openAccessPoint (ssid pass : String) (channel : UInt8) (encryption : Encryption) (apOnly : Bool)
  | openPublicAccessPoint (ssid : String)
  | mode
  | address
  | netmask
  | gateway

/-- Operations of the link table. -/
inductive TableAction where
  | claim (link : UInt8)
  | release (link : UInt8)
  | setPort (link : UInt8) (port : UInt16)
  | port (link : UInt8)
  | isClaimed (link : UInt8)
  | free
  | claimed
  deriving DecidableEq

/-- Operations of a client. -/
inductive ClientAction where
  /-- Forget the link of the handle. -/
  | new
  /-- Take over the handle of another client. -/
  | copy (source : Nat)
  | connect (host : String) (port : UInt16) (transport : Transport)
  | send (data : Bytes)
  | sendText (text : String) (crlf : Bool)
  | available
  | read
  | peek
  | readAll
  | readUpTo (n : Nat)
  | flush (maxWait : UInt32)
  | close
  | status
  | connected
  | remoteIp
  /-- Ask the server for a client. -/
  | accept

/-- Operations of the server. -/
inductive ServerAction where
  | new (port : UInt16)
  | start
  | broadcast (data : Bytes)
  | status

/-- Operations of a datagram socket. -/
inductive UdpAction where
  | listen (port : UInt16)
  | available
  | setRemote (host : String) (port : UInt16)
  /-- End a datagram. Each send is a datagram of its own, so nothing is left to do. -/
  | endDatagram
  | send (data : Bytes)
  | read
  | peek
  | readUpTo (n : Nat)
  | flush
  | close
  | remoteIp
  | remotePort

/-- An operation of a session. Clients and datagram sockets are numbered. -/
inductive Action where
  | engine (a : EngineAction)
  | driver (a : DriverAction)
  | wifi (a : WifiAction)
  | table (a : TableAction)
  | client (c : Nat) (a : ClientAction)
  | server (a : ServerAction)
  | udp (u : Nat) (a : UdpAction)

/-- A network with its handles. A handle that was never used is unbound. -/
structure Session (σ : Type) where
  wifi : Wifi σ
  server : Server := { port := 23 }
  clients : Nat → Client := fun _ => {}
  udps : Nat → Udp := fun _ => {}

variable {σ α : Type} [Device σ]

/-- Carry out an operation of the engine. -/
def EngineAction.perform : EngineAction → Run (Engine σ) Reply
  | .request command timeout => do
    return .ofExcept .tag (← (Engine.request [command] timeout).run)
  | .requestOk command timeout => do return .ofOutcome (← (Engine.requestOk [command] timeout).run)
  | .queryField command start stop m => do
    return .ofExcept .text (← (Engine.queryField command start stop m).run)
  | .awaitTag timeout tag known => do return .scan (← Engine.awaitTag timeout tag known)
  | .skipPast tag timeout => do return .flag (← Engine.skipPast tag timeout)
  | .transmit data => do return .ofOutcome (← (Engine.transmit data).run)
  | .transmitLine line => do return .ofOutcome (← (Engine.transmitLine line).run)
  | .drain warn => do return .number (← Engine.drain warn)
  | .awaitByte timeout => do return .byte (← Engine.awaitByte timeout)
  | .awaitPeek timeout => do return .byte (← Engine.awaitPeek timeout)
  | .readInt => do return .integer (← Engine.readInt)
  | .window => do
    let window := (← get).window
    return .window window.length window.isEmpty
  | .endsWith tag => do return .flag ((← get).window.endsWith tag)
  | .extract m skip => do return .ofExcept .text ((← get).window.extract m skip)
  | .takeDropped => do return .number (← Engine.takeDropped)
  | .timeouts => do return .timeouts (← get).timeouts
  | .takeErrors => do return .number (← onDevice Device.takeErrors).bits
  | .available => do return .number (← onDevice Device.available)
  | .millis => do return .number (← onDevice Device.millis).toNat
  | .elapsed start => do return .number (← onDevice (EspWifi.elapsed start)).toNat
  | .readPacket => do return .packet (← Packet.read.run)

/-- Carry out an operation of the driver. -/
def DriverAction.perform : DriverAction → Run (Driver σ) Reply
  | .bringUp => do return .ofOutcome (← Driver.bringUp.run)
  | .restart => do
    Driver.restart
    return .done
  | .join ssid pass => do return .ofOutcome (← (Driver.join ssid pass).run)
  | .openAccessPoint ssid pass channel encryption mode => do
    return .ofOutcome (← (Driver.openAccessPoint ssid pass channel encryption mode).run)
  | .leave => do return .status (← Driver.leave)
  | .setStationAddress ip => do return .ofOutcome (← (Driver.setStationAddress ip).run)
  | .setAccessPointAddress ip => do return .ofOutcome (← (Driver.setAccessPointAddress ip).run)
  | .status => do return .status (← Driver.status)
  | .isListed link => do return .ofExcept .flag (← (Driver.isListed link).run)
  | .macAddress => do return .ofExcept .mac (← Driver.macAddress.run)
  | .stationAddress => do return .ofExcept (.address ∘ some) (← Driver.stationAddress.run)
  | .accessPointAddress => do return .ofExcept (.address ∘ some) (← Driver.accessPointAddress.run)
  | .netmask => do return .ofExcept (.address ∘ some) (← Driver.netmask.run)
  | .gateway => do return .ofExcept (.address ∘ some) (← Driver.gateway.run)
  | .joinedSsid => do return .ofExcept .text (← Driver.joinedSsid.run)
  | .joinedBssid => do return .ofExcept .mac (← Driver.joinedBssid.run)
  | .joinedRssi => do return .ofExcept (.integer ∘ some) (← Driver.joinedRssi.run)
  | .readVersion => do return .ofExcept .text (← Driver.readVersion.run)
  | .cachedVersion => do return .text (← get).version
  | .listNetworks => do return .ofExcept .number (← Driver.listNetworks.run)
  | .networks => do return .networks (← get).networks
  | .network i => do return .network (← get).networks[i]?
  | .ping host => do return .ofOutcome (← (Driver.ping host).run)
  | .listen port => do return .ofOutcome (← (Driver.listen port).run)
  | .openLink host port link transport => do
    return .ofOutcome (← (Driver.openLink host port link transport).run)
  | .closeLink link => do return .ofOutcome (← (Driver.closeLink link).run)
  | .available link => do return .number (← Driver.available link).toNat
  | .receiveByte link peek => do
    return .ofExcept (fun r => .received r.byte r.closed) (← (Driver.receiveByte link peek).run)
  | .receive link n => do return .ofExcept .buffer (← (Driver.receive link n).run)
  | .sendBytes link data => do return .ofOutcome (← (Driver.sendBytes link data).run)
  | .sendText link text crlf => do return .ofOutcome (← (Driver.sendText link text crlf).run)
  | .sendDatagram link host port data => do
    return .ofOutcome (← (Driver.sendDatagram link host port data).run)
  | .remoteIp => do return .address (← get).packet.remoteIp
  | .remotePort => do return .number (← get).packet.remotePort.toNat
  | .delay ms => do
    Driver.delay ms
    return .done

/-- Carry out an operation of the network. -/
def WifiAction.perform : WifiAction → Run (Wifi σ) Reply
  | .bringUp => do return .ofOutcome (← Wifi.bringUp.run)
  | .join ssid pass => do return .status (← Wifi.join ssid pass)
  | .openAccessPoint ssid pass channel encryption apOnly => do
    return .status (← Wifi.openAccessPoint ssid channel pass encryption apOnly)
  | .openPublicAccessPoint ssid => do return .status (← Wifi.openPublicAccessPoint ssid)
  | .mode => do return .mode (← get).mode
  | .address => do return .ofExcept (.address ∘ some) (← Wifi.address.run)
  | .netmask => do return .ofExcept (.address ∘ some) (← Wifi.netmask.run)
  | .gateway => do return .ofExcept (.address ∘ some) (← Wifi.gateway.run)

/-- An operation of the link table, its answer and the table after it. -/
def TableAction.perform (t : LinkTable) : TableAction → Reply × LinkTable
  | .claim link =>
    match t.claim link with
    | .ok t => (.ok, t)
    | .error f => (.fault f, t)
  | .release link => (.done, t.release link)
  | .setPort link number =>
    match t.setPort link number with
    | .ok t => (.ok, t)
    | .error f => (.fault f, t)
  | .port link => (.number (t.port link).toNat, t)
  | .isClaimed link => (.flag (t.isClaimed link), t)
  | .free => (.link t.free?, t)
  | .claimed => (.links t.claimed, t)

/-- Replace a handle by the one an operation binds; if it fails, the handle stays as it is. -/
def rebind (h : α) : Except Fault α → Reply × α
  | .ok h => (.ok, h)
  | .error f => (.fault f, h)

/-- Carry out an operation of a client, given the handles of all of them. -/
def ClientAction.perform (clients : Nat → Client) (c : Client) :
    ClientAction → Run (Wifi σ) (Reply × Client)
  | .new => return (.done, {})
  | .copy source => return (.done, clients source)
  | .connect host port transport => do
    return rebind c (← (Client.connect host port transport).run)
  | .send data => do
    let (result, c) ← c.send data
    return (.ofExcept .number result, c)
  | .sendText text crlf => do
    let (result, c) ← c.sendText text crlf
    return (.ofExcept .number result, c)
  | .available => do return (.number (← c.available).toNat, c)
  | .read => do
    let (byte, c) ← c.read
    return (.byte byte, c)
  | .peek => do
    let (byte, c) ← c.peek
    return (.byte byte, c)
  | .readAll => do
    let (bytes, c) ← c.readAll
    return (.bytes bytes, c)
  | .readUpTo n => do return (.ofExcept .buffer (← (c.readUpTo n).run), c)
  | .flush maxWait => do
    let (drained, c) ← c.flush maxWait
    return (.flag drained, c)
  | .close => do return (.done, ← c.close)
  | .status => do
    let (state, c) ← c.status
    return (.tcp state, c)
  | .connected => do
    let (open', c) ← c.connected
    return (.flag open', c)
  | .remoteIp => do return (.address (← get).driver.packet.remoteIp, c)
  | .accept => do
    match ← Server.accept with
    | some c => return (.flag true, c)
    | none => return (.flag false, c)

/-- Carry out an operation of the server. -/
def ServerAction.perform (s : Server) : ServerAction → Run (Wifi σ) (Reply × Server)
  | .new port => return (.done, { port })
  | .start => do
    let (result, s) ← s.start
    return (.ofOutcome result, s)
  | .broadcast data => do return (.number (← Server.broadcast data), s)
  | .status => return (.tcp Server.status, s)

/-- Carry out an operation of a datagram socket. -/
def UdpAction.perform (u : Udp) : UdpAction → Run (Wifi σ) (Reply × Udp)
  | .listen port => do return rebind u (← (u.listen port).run)
  | .available => do return (.number (← u.available).toNat, u)
  | .setRemote host port => do return rebind u (← (u.setRemote host port).run)
  | .endDatagram => return (.ok, u)
  | .send data => do return (.ofExcept .number (← (u.send data).run), u)
  | .read => do return (.byte (← u.read), u)
  | .peek => do return (.byte (← u.peek), u)
  | .readUpTo n => do return (.ofExcept .buffer (← (u.readUpTo n).run), u)
  | .flush => do
    u.flush
    return (.done, u)
  | .close => do return (.done, ← u.close)
  | .remoteIp => do return (.address (← get).driver.packet.remoteIp, u)
  | .remotePort => do return (.number (← get).driver.packet.remotePort.toNat, u)

/-- A family of handles with one of them replaced. -/
def replaceAt (f : Nat → α) (i : Nat) (a : α) : Nat → α := fun j => if j = i then a else f j

namespace Session

/-- A network program, run on the network of a session. -/
def onWifi (m : Run (Wifi σ) α) : Run (Session σ) α :=
  Run.focus (·.wifi) (fun w s => { s with wifi := w }) m

/-- **Carry out an operation.** -/
def perform : Action → Run (Session σ) Reply
  | .engine a => onWifi (onDriver (onEngine a.perform))
  | .driver a => onWifi (onDriver a.perform)
  | .wifi a => onWifi a.perform
  | .table a => onWifi (modifyGet fun w =>
      let (reply, table) := a.perform w.links
      (reply, { w with links := table }))
  | .client c a => do
    let clients := (← get).clients
    let (reply, client) ← onWifi (a.perform clients (clients c))
    modify fun s => { s with clients := replaceAt s.clients c client }
    return reply
  | .server a => do
    let (reply, server) ← onWifi (a.perform (← get).server)
    modify fun s => { s with server := server }
    return reply
  | .udp u a => do
    let (reply, udp) ← onWifi (a.perform ((← get).udps u))
    modify fun s => { s with udps := replaceAt s.udps u udp }
    return reply

end Session

end EspWifi
