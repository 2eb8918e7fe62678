import EspWifi.Net.Client
import EspWifi.Proofs.Modem.Delivery
import EspWifi.Proofs.Net.Slots
import Mathlib.Algebra.GroupWithZero.Nat

/-!
# A close by the remote side

When the remote side closes a link, the module says so right behind the payload. A client can take
that payload byte by byte or many bytes at once, and which of the two takes the last byte decides
whether the notice is looked for.

* `PayloadRead`, `Client.takeAll`: a payload that is taken by some reads, one after the other.
* `Driver.Announces`: the driver has read a header, and the unread payload waits with its notice.
* `Client.wp_take_some`, `Client.wp_take_last_byte`, `Client.wp_take_last_upTo`: what one read takes and what
  it leaves.
* `remote_close_read`: **the notice is taken by a read of the last byte alone**, and is left in the
  stream by any other read.
-/

namespace EspWifi

open Run

variable {cut : Prop}

/-- One read of payload. -/
inductive PayloadRead where
  /-- The next byte. -/
  | byte
  /-- Up to `n` bytes. -/
  | upTo (n : Nat)

/-- The number of bytes a read takes if there are that many. -/
def PayloadRead.size : PayloadRead → Nat
  | byte => 1
  | upTo n => n

namespace Client

variable {σ : Type} [Device σ]

/-- Take payload with one read. A read that fails takes none. -/
def take (c : Client) : PayloadRead → Run (Wifi σ) (Bytes × Client)
  | .byte => do
    let (byte, c) ← c.read
    return (byte.toList, c)
  | .upTo n => do
    match ← (c.readUpTo n).run with
    | .ok bytes => return (bytes, c)
    | .error _ => return ([], c)

/-- Take payload with one read after the other. -/
def takeAll (c : Client) : List PayloadRead → Run (Wifi σ) (Bytes × Client)
  | [] => return ([], c)
  | r :: rs => do
    let (bytes, c) ← c.take r
    let (more, c) ← c.takeAll rs
    return (bytes ++ more, c)

end Client

namespace Driver

variable {d : Driver Bench} {link : Fin 4} {x : UInt8} {u tail : Bytes}

/-- **The packet announces the unread payload `u` of `link`**, which waits with `tail` behind it. -/
structure Announces (d : Driver Bench) (link : Fin 4) (u tail : Bytes) : Prop where
  link : d.packet.link = link.val.toUInt8
  remaining : d.packet.remaining.toNat = u.length
  dropped : d.engine.dropped = 0
  closing : 8 < d.engine.timeouts.closed.toNat
  stream : d.engine.device.Holds (u ++ tail)

/-- **Asked for `link`, the driver finds the payload `u`**, which waits with `tail` behind it. -/
def Finds (d : Driver Bench) (link : Fin 4) (u tail : Bytes) : Prop :=
  wp False (available (some link.val.toUInt8)) (fun n d' => n ≠ 0 ∧ d'.Announces link u tail) d

namespace Announces

theorem atPayload (h : d.Announces link u tail) : d.AtPayload u tail :=
  ⟨h.remaining, fun _ => h.dropped, h.stream⟩

/-- What was announced and not yet read is still announced. -/
theorem took (h : d.Announces link u tail) {b : Bench} {n : Nat} {u' : Bytes}
    (hpayload : (d.took b d.engine.window n).AtPayload u' tail) :
    (d.took b d.engine.window n).Announces link u' tail :=
  ⟨h.link, hpayload.remaining, h.dropped, h.closing, hpayload.stream⟩

/-- What is announced is found. -/
theorem finds (h : d.Announces link u tail) (hu : u ≠ []) : d.Finds link u tail :=
  h.atPayload.wp_available_own hu h.link fun hremaining => ⟨hremaining, h⟩

/-- **A byte is read, and only behind the last one is a notice looked for.** -/
theorem wp_receiveByte (h : d.Announces link (x :: u) tail) {Q : Received → Driver Bench → Prop}
    {F : Fault → Driver Bench → Prop}
    (more : u ≠ [] → ∀ d', d'.Announces link u tail → Q ⟨x, false⟩ d')
    (last : u = [] → ∀ d', d'.Announces link [] tail →
      wp cut (sawClose link.val.toUInt8) (fun closed => Q ⟨x, closed⟩) d') :
    Attempt.wp cut (receiveByte link.val.toUInt8 false) Q F d := by
  refine h.atPayload.wp_receiveByte h.link (fun hu b hb => more hu _ (h.took hb)) fun hu b hb => ?_
  have hannounced := h.took hb
  rw [hu] at hannounced
  exact last hu _ hannounced

/-- **Many bytes are read, and nothing is looked for behind them.** -/
theorem wp_receive (h : d.Announces link u tail) {n : Nat} {Q : Bytes → Driver Bench → Prop}
    {F : Fault → Driver Bench → Prop}
    (hQ : ∀ d', d'.Announces link (u.drop n) tail → Q (u.take n) d') :
    Attempt.wp cut (receive link.val.toUInt8 n) Q F d :=
  h.atPayload.wp_receive h.dropped h.link fun _ hb => hQ _ (h.took hb)

end Announces

/-- **A frame that waits is found.** -/
theorem finds_frame {f : Frame} (hdrained : d.packet.isDrained = true)
    (h : d.engine.device.Holds (f.opening ++ f.payload ++ tail)) (hpayload : f.payload ≠ [])
    (hfield : 7 < d.engine.timeouts.field.toNat) (hclosing : 8 < d.engine.timeouts.closed.toNat) :
    d.Finds f.link f.payload tail := by
  have hlength : f.payload.length.toUInt16.toNat = f.payload.length :=
    Nat.mod_eq_of_lt f.payload_lt
  have hown : (f.packet f.payload.length).isFor (some f.link.val.toUInt8) = true :=
    Packet.isFor_iff.2 rfl
  refine wp_available_frame hdrained h hfield fun b window hb => ?_
  have hannounced : Announces
      { d with
        engine := { d.engine with device := b, window := window, dropped := 0 }
        packet := f.packet f.payload.length } f.link f.payload tail :=
    ⟨rfl, hlength, rfl, hclosing, hb⟩
  rw [if_pos hown]
  exact ⟨hannounced.atPayload.remaining_ne_zero hpayload, hannounced⟩

end Driver

variable {w : Wifi Bench} {link : Fin 4} {x : UInt8} {u tail : Bytes}

namespace Client

/-- What a client asks for is what its driver finds. -/
theorem wp_available (h : w.driver.Finds link u tail) {Q : UInt16 → Wifi Bench → Prop}
    (hQ : ∀ n d, n ≠ 0 → d.Announces link u tail → Q n { w with driver := d }) :
    wp False (Client.available ⟨some link.val.toUInt8⟩) Q w := by
  unfold Client.available
  rw [wp_onDriver]
  exact wp_mono h fun n d ⟨hn, hd⟩ => hQ n d hn hd

/-- **A byte is read, and only behind the last one can the handle be lost.** -/
theorem wp_read (h : w.driver.Finds link (x :: u) tail)
    {Q : Option UInt8 × Client → Wifi Bench → Prop}
    (more : u ≠ [] → ∀ d, d.Announces link u tail →
      Q (some x, ⟨some link.val.toUInt8⟩) { w with driver := d })
    (last : u = [] → ∀ d, d.Announces link [] tail →
      wp False (Driver.sawClose link.val.toUInt8) (fun closed d' =>
        if closed then
          Q (some x, ⟨none⟩) { w with driver := d', links := w.links.release link.val.toUInt8 }
        else Q (some x, ⟨some link.val.toUInt8⟩) { w with driver := d' }) d) :
    wp False (Client.read ⟨some link.val.toUInt8⟩) Q w := by
  unfold Client.read getByte
  rw [wp_bind]
  refine wp_available h fun n d hn hd => ?_
  rw [if_neg hn]
  simp only [wp_bind, Attempt.wp_run, wp_tryDriver]
  refine hd.wp_receiveByte (fun hu d' hd' => more hu d' hd') fun hu d' hd' => ?_
  refine wp_mono (last hu d' hd') fun closed d'' hd'' => ?_
  cases closed with
  | true => exact hd''
  | false => exact hd''

/-- **Many bytes are read, and the handle is kept.** -/
theorem wp_readUpTo (h : w.driver.Finds link u tail) {n : Nat} {Q : Bytes → Wifi Bench → Prop}
    {F : Fault → Wifi Bench → Prop}
    (hQ : ∀ d, d.Announces link (u.drop n) tail → Q (u.take n) { w with driver := d }) :
    Attempt.wp False (Client.readUpTo ⟨some link.val.toUInt8⟩ n) Q F w := by
  unfold Client.readUpTo
  rw [Attempt.wp_bind, Attempt.wp_lift]
  refine wp_available h fun n d hn hd => ?_
  rw [if_neg hn, wp_tryDriver]
  exact hd.wp_receive fun d' hd' => hQ d' hd'

/-- **A read that does not empty the packet keeps the handle**, and what it leaves is found by the
next one. -/
theorem wp_take_some (h : w.driver.Finds link u tail) {r : PayloadRead}
    (hr : r.size < u.length) {Q : Bytes × Client → Wifi Bench → Prop}
    (hQ : ∀ d, d.Finds link (u.drop r.size) tail →
      Q (u.take r.size, ⟨some link.val.toUInt8⟩) { w with driver := d }) :
    wp False (Client.take ⟨some link.val.toUInt8⟩ r) Q w := by
  have hrest : u.drop r.size ≠ [] := by
    rw [ne_eq, List.drop_eq_nil_iff]
    omega
  cases r with
  | byte =>
    obtain ⟨x, u, rfl⟩ := List.exists_cons_of_length_pos (Nat.zero_lt_of_lt hr)
    show wp False (do
      let (byte, c) ← Client.read ⟨some link.val.toUInt8⟩
      return (byte.toList, c)) Q w
    rw [wp_bind]
    exact wp_read h (fun _ d hd => hQ d (hd.finds hrest)) fun hu => absurd hu hrest
  | upTo n =>
    show wp False (do
      match ← (Client.readUpTo ⟨some link.val.toUInt8⟩ n).run with
      | .ok bytes => return (bytes, ⟨some link.val.toUInt8⟩)
      | .error _ => return ([], ⟨some link.val.toUInt8⟩)) Q w
    rw [wp_bind, Attempt.wp_run]
    exact wp_readUpTo h fun d hd => hQ d (hd.finds hrest)

/-- **Reads that do not empty the packet keep the handle**, and the read after them finds what they
left. -/
theorem wp_takeAll (rs : List PayloadRead) {r : PayloadRead} (h : w.driver.Finds link u tail)
    (hrs : (rs.map PayloadRead.size).sum < u.length) {Q : Bytes × Client → Wifi Bench → Prop}
    (hQ : ∀ d, d.Finds link (u.drop (rs.map PayloadRead.size).sum) tail →
      wp False (Client.take ⟨some link.val.toUInt8⟩ r) (fun (bytes, c) =>
        Q (u.take (rs.map PayloadRead.size).sum ++ bytes, c)) { w with driver := d }) :
    wp False (Client.takeAll ⟨some link.val.toUInt8⟩ (rs ++ [r])) Q w := by
  induction rs generalizing w u Q with
  | nil =>
    show wp False (do
      let (bytes, c) ← Client.take ⟨some link.val.toUInt8⟩ r
      return (bytes ++ [], c)) Q w
    rw [wp_bind]
    refine wp_mono (hQ w.driver h) ?_
    rintro ⟨bytes, c⟩ w' hw'
    rw [wp_pure, List.append_nil]
    exact hw'
  | cons r' rs ih =>
    rw [List.map_cons, List.sum_cons] at hrs hQ
    show wp False (do
      let (bytes, c) ← Client.take ⟨some link.val.toUInt8⟩ r'
      let (more, c) ← c.takeAll (rs ++ [r])
      return (bytes ++ more, c)) Q w
    rw [wp_bind]
    refine wp_take_some h (by omega) fun d hd => ?_
    simp only [wp_bind]
    refine ih hd (by rw [List.length_drop]; omega) fun d' hd' => ?_
    rw [List.drop_drop] at hd'
    refine wp_mono (hQ d' hd') ?_
    rintro ⟨bytes, c⟩ w' hw'
    show Q (u.take r'.size ++ ((u.drop r'.size).take _ ++ bytes), c) w'
    rw [← List.append_assoc, ← List.take_add]
    exact hw'

/-- **A read of the last byte takes the notice behind it.** -/
theorem wp_take_last_byte {mark rest : Bytes} (hmark : mark = [] ∨ mark = decimal link)
    (h : w.driver.Finds link [x] (mark ++ utf8 closedTrailer ++ rest))
    {Q : Bytes × Client → Wifi Bench → Prop}
    (hQ : ∀ d : Driver Bench, d.engine.device.Holds rest →
      Q ([x], ⟨none⟩) { w with driver := d, links := w.links.release link.val.toUInt8 }) :
    wp False (Client.take ⟨some link.val.toUInt8⟩ .byte) Q w := by
  show wp False (do
    let (byte, c) ← Client.read ⟨some link.val.toUInt8⟩
    return (byte.toList, c)) Q w
  rw [wp_bind]
  refine wp_read h (fun hne => absurd rfl hne) fun _ d hd => ?_
  exact Driver.wp_sawClose_notice hmark hd.stream hd.closing fun b window hb => hQ _ hb

/-- **Many bytes are taken, the last one among them, and the notice stays where it is.** -/
theorem wp_take_last_upTo (h : w.driver.Finds link u tail) {n : Nat} (hn : u.length ≤ n)
    {Q : Bytes × Client → Wifi Bench → Prop}
    (hQ : ∀ d : Driver Bench, d.engine.device.Holds tail →
      Q (u, ⟨some link.val.toUInt8⟩) { w with driver := d }) :
    wp False (Client.take ⟨some link.val.toUInt8⟩ (.upTo n)) Q w := by
  show wp False (do
    match ← (Client.readUpTo ⟨some link.val.toUInt8⟩ n).run with
    | .ok bytes => return (bytes, ⟨some link.val.toUInt8⟩)
    | .error _ => return ([], ⟨some link.val.toUInt8⟩)) Q w
  rw [wp_bind, Attempt.wp_run]
  refine wp_readUpTo h fun d hd => ?_
  have hstream := hd.stream
  rw [List.drop_of_length_le hn, List.nil_append] at hstream
  rw [List.take_of_length_le hn, wp_pure]
  exact hQ d hstream

end Client

/-- **The notice of a close is taken by a read of the last byte alone.** A frame for a link waits with
the notice behind it, and its payload is taken by some reads. All of it is handed out. If its last
byte is taken by a read of one byte, the handle is unbound, the slot of the link is free and has no
port, and the notice is gone. If the last byte is taken by a read of many, the handle stays bound,
the table stays as it was, and the notice stays in the stream. Reads before the last one make no
difference. -/
theorem remote_close_read {w : Wifi Bench} {f : Frame} {mark rest : Bytes}
    {init : List PayloadRead} {last : PayloadRead} (hmark : mark = [] ∨ mark = decimal f.link)
    (hstream : w.device.Holds (f.opening ++ f.payload ++ (mark ++ utf8 closedTrailer ++ rest)))
    (hdrained : w.driver.packet.isDrained = true)
    (hfield : 7 < w.driver.engine.timeouts.field.toNat)
    (hclosing : 8 < w.driver.engine.timeouts.closed.toNat)
    (hinit : (init.map PayloadRead.size).sum < f.payload.length)
    (hlast : f.payload.length ≤ (init.map PayloadRead.size).sum + last.size) :
    ∃ c w', Client.takeAll ⟨some f.link.val.toUInt8⟩ (init ++ [last]) w = .ok (f.payload, c) w' ∧
      (last = .byte → c.link = none ∧ w'.links = w.links.release f.link.val.toUInt8 ∧
        w'.links.slot? f.link.val.toUInt8 = some {} ∧ w'.device.rx = rest) ∧
      ∀ n, last = .upTo n → c.link = some f.link.val.toUInt8 ∧ w'.links = w.links ∧
        w'.device.rx = mark ++ utf8 closedTrailer ++ rest := by
  have hpayload : f.payload ≠ [] := List.length_pos_iff.1 (by omega)
  have hfinds := Driver.finds_frame hdrained hstream hpayload hfield hclosing
  have hlink : f.link.val.toUInt8.toNat < linkCount := by
    generalize f.link = link
    revert link
    decide
  generalize hn : (init.map PayloadRead.size).sum = n at hinit hlast
  have hjoin : f.payload.take n ++ f.payload.drop n = f.payload := List.take_append_drop n _
  have hlen : (f.payload.drop n).length = f.payload.length - n := List.length_drop
  cases last with
  | byte =>
    have hsize : f.payload.length ≤ n + 1 := hlast
    obtain ⟨x, hx⟩ := List.length_eq_one_iff.1 (hlen.trans (by omega))
    have hwp : wp False (Client.takeAll ⟨some f.link.val.toUInt8⟩ (init ++ [.byte]))
        (fun r w' => r = (f.payload, ⟨none⟩) ∧ w'.links = w.links.release f.link.val.toUInt8 ∧
          w'.device.rx = rest) w := by
      refine Client.wp_takeAll init hfinds (by omega) fun d hd => ?_
      rw [hn, hx] at hd
      refine Client.wp_take_last_byte hmark hd fun d' hd' => ⟨?_, rfl, hd'.rx⟩
      rw [hn, ← hx, hjoin]
    obtain ⟨r, w', hrun, rfl, hlinks, hrx⟩ := wp_false_iff.1 hwp
    exact ⟨_, w', hrun,
      fun _ => ⟨rfl, hlinks, hlinks ▸ LinkTable.slot?_release hlink, hrx⟩, nofun⟩
  | upTo k =>
    have hsize : f.payload.length ≤ n + k := hlast
    have hwp : wp False (Client.takeAll ⟨some f.link.val.toUInt8⟩ (init ++ [.upTo k]))
        (fun r w' => r = (f.payload, ⟨some f.link.val.toUInt8⟩) ∧ w'.links = w.links ∧
          w'.device.rx = mark ++ utf8 closedTrailer ++ rest) w := by
      refine Client.wp_takeAll init hfinds (by omega) fun d hd => ?_
      rw [hn] at hd
      refine Client.wp_take_last_upTo hd (by omega) fun d' hd' => ⟨?_, rfl, hd'.rx⟩
      rw [hn, hjoin]
    obtain ⟨r, w', hrun, rfl, hlinks, hrx⟩ := wp_false_iff.1 hwp
    exact ⟨_, w', hrun, nofun, fun _ _ => ⟨rfl, hlinks, hrx⟩⟩

/-- A frame of five bytes on link 0. -/
def helloFrame : Frame where
  link := 0
  sender := none
  payload := utf8 "HELLO"
  payload_lt := by decide
  spaced := false
  closed := true

/-- A network on which link 0 is in use, and was closed by the remote side behind five bytes. -/
def closedHello : Wifi Bench where
  driver := { engine := { device := { rx := helloFrame.wire } } }
  links := (LinkTable.fresh.update? 0 fun s => { s with inUse := true }).getD .fresh

theorem close_missed_hello :
    ∃ c w', Client.takeAll ⟨some 0⟩ [.upTo 64] closedHello = .ok (utf8 "HELLO", c) w' ∧
      c.link = some 0 ∧ w'.links = closedHello.links ∧ w'.device.rx = Frame.trailer 0 := by
  have hstream : closedHello.device.Holds (helloFrame.opening ++ helloFrame.payload ++
      (decimal helloFrame.link ++ utf8 closedTrailer ++ utf8 lineEnd)) := ⟨rfl, rfl, rfl⟩
  obtain ⟨c, w', hrun, -, hleft⟩ := @remote_close_read closedHello helloFrame
    (decimal helloFrame.link) (utf8 lineEnd) [] (.upTo 64) (.inr rfl) hstream rfl (by decide)
    (by decide) (by decide) (by decide)
  exact ⟨c, w', hrun, hleft 64 rfl⟩

/-- **The two ways to read differ.** Read byte by byte, the payload ends with the handle unbound, the
slot free and the notice gone; read at once, it ends with none of these. -/
theorem close_missed :
    [List.replicate 5 .byte, [.upTo 64]].map (fun reads => value? (do
      let (bytes, c) ← Client.takeAll ⟨some 0⟩ reads
      let w ← get
      return (bytes, c.link, w.links.isClaimed 0, w.device.rx)) closedHello) =
      [some (utf8 "HELLO", none, false, utf8 "\r\n"),
        some (utf8 "HELLO", some 0, true, utf8 "0,CLOSED\r\n")] := by
  decide +kernel

end EspWifi
