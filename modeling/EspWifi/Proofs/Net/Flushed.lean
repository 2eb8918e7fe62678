import EspWifi.Proofs.Modem.Stored
import EspWifi.Proofs.Net.Flush

/-!
# What a flush takes

With complete frames in the stream, the flush of a socket takes what is unread of its datagram. That of a
client takes the payload that is for its link, frame by frame. A look for data is needed to tell where it
ends, and that look reads the header of the next frame, so a frame for another link is held for its owner.

* `Client.Skims`: how far a client gets in a row of frames.
* `Client.Flushed`, `Udp.Flushed`: what a flush comes to.
* `Client.wp_flush_round`: a round of a flush takes a byte that is for the client, or ends the flush.
* `flush_own`: **a flush takes what is its own, and no more.**
-/

namespace EspWifi

open Run

variable {cut : Prop} {w : Wifi Bench} {link : Fin 4} {v u : Bytes} {x : UInt8} {f : Frame}
  {frames : List Frame}

theorem toUInt8_inj : ∀ {a b : Fin 4}, a.val.toUInt8 = b.val.toUInt8 ↔ a = b := by decide

namespace Udp

variable {s : Udp}

/-- A byte that is unread is read. -/
theorem wp_read_stored (hs : s.link = some link.val.toUInt8) (h : w.driver.Stores (x :: u) frames)
    (hlink : w.driver.packet.link = link.val.toUInt8) {Q : Option UInt8 → Wifi Bench → Prop}
    (hQ : ∀ d, d.Stores u frames → d.packet.link = link.val.toUInt8 → Q (some x) { w with driver := d }) :
    wp cut s.read Q w := by
  unfold Udp.read getByte available
  rw [hs, wp_bind, wp_onDriver]
  refine h.wp_available_own (List.cons_ne_nil x u) hlink fun hremaining => ?_
  rw [if_neg hremaining, wp_bind, Attempt.wp_run, wp_tryDriver]
  exact h.wp_receiveByte hlink hQ

/-- **As many reads as bytes are unread take all of them**, and nothing else. -/
theorem wp_skip_stored (hs : s.link = some link.val.toUInt8) (h : w.driver.Stores v frames)
    (hlink : w.driver.packet.link = link.val.toUInt8) {Q : Unit → Wifi Bench → Prop}
    (hQ : ∀ d, d.Stores [] frames → Q () { w with driver := d }) : wp cut (s.skip v.length) Q w := by
  induction v generalizing w Q with
  | nil => exact hQ w.driver h
  | cons x u ih =>
    rw [List.length_cons, skip, wp_bind]
    exact wp_read_stored hs h hlink fun d hd hlink' => ih hd hlink' hQ

/-- **The flush of a socket takes what is unread of its datagram.** -/
theorem wp_flush_stored (hs : s.link = some link.val.toUInt8) (h : w.driver.Stores v frames) (hv : v ≠ [])
    (hlink : w.driver.packet.link = link.val.toUInt8) {Q : Unit → Wifi Bench → Prop}
    (hQ : ∀ d, d.Stores [] frames → Q () { w with driver := d }) : wp cut s.flush Q w := by
  unfold flush available
  rw [hs, wp_bind, wp_onDriver]
  refine h.wp_available_own hv hlink fun _ => ?_
  rw [h.remaining]
  exact wp_skip_stored hs h hlink hQ

/-- **A frame that comes next is delivered whole.** -/
theorem wp_readUpTo_next (hs : s.link = some f.link.val.toUInt8) (h : w.driver.Stores [] (f :: frames))
    {n : Nat} {Q : Bytes → Wifi Bench → Prop} {F : Fault → Wifi Bench → Prop}
    (hQ : ∀ d, d.Stores (f.payload.drop n) frames → Q (f.payload.take n) { w with driver := d }) :
    Attempt.wp cut (s.readUpTo n) Q F w := by
  have hpayload : f.payload ≠ [] := (h.plain f List.mem_cons_self).1
  unfold readUpTo available
  rw [hs, Attempt.wp_bind, Attempt.wp_lift, wp_onDriver]
  refine h.wp_available_next fun d hd hpacket => ?_
  have hlink : d.packet.link = f.link.val.toUInt8 := by rw [hpacket, Frame.packet]
  rw [if_pos (Packet.isFor_iff.2 hlink), if_neg (hd.remaining_ne_zero hpayload), wp_tryDriver]
  exact hd.wp_receive hpayload hlink fun d' hd' _ => hQ d' hd'

end Udp

namespace Client

/-- **How far a client of `link` gets** in a row of frames behind the unread payload `v`: it has taken a
beginning of `v`, or else all of `v`, all payload of some frames and a beginning of that of another, all
of them for its link. -/
inductive Skims (link : Fin 4) (v : Bytes) (frames : List Frame) : Bytes → List Frame → Prop
  | started (n : Nat) : Skims link v frames (v.drop n) frames
  | reached {mine rest : List Frame} {f : Frame} (n : Nat) (order : frames = mine ++ f :: rest)
    (own : ∀ g ∈ mine, g.link = link) (last : f.link = link) : Skims link v frames (f.payload.drop n) rest

namespace Skims

variable {v' : Bytes} {rest : List Frame}

/-- A byte is taken. -/
theorem take (h : Skims link v frames (x :: u) rest) : Skims link v frames u rest := by
  generalize hv : x :: u = v' at h
  have htail : u = v'.drop 1 := by rw [← hv]; rfl
  rw [htail]
  cases h with
  | started n =>
    rw [List.drop_drop]
    exact .started _
  | reached n order own last =>
    rw [List.drop_drop]
    exact .reached _ order own last

/-- The frames that a client has passed are its own. -/
theorem passed (h : Skims link v frames v' rest) :
    ∃ mine, frames = mine ++ rest ∧ ∀ f ∈ mine, f.link = link := by
  cases h with
  | started n => exact ⟨[], rfl, nofun⟩
  | @reached mine _ f n order own last =>
    refine ⟨mine ++ [f], by rw [order, List.append_assoc, List.singleton_append], fun g hg => ?_⟩
    rcases List.mem_append.1 hg with hg | hg
    · exact own g hg
    · rwa [List.mem_singleton.1 hg]

/-- The next frame is begun. -/
theorem next (h : Skims link v frames v' (f :: rest)) (hf : f.link = link) :
    Skims link v frames f.payload rest := by
  obtain ⟨mine, order, own⟩ := h.passed
  have hreached : Skims link v frames (f.payload.drop 0) rest := .reached 0 order own hf
  rwa [List.drop_zero] at hreached

end Skims

/-- **What the flush of a client of `link` comes to**, from the unread payload `v` of a packet with some
frames behind it: its answer, and what the driver is left with. -/
inductive Flushed (link : Fin 4) (d : Driver Bench) (v : Bytes) (frames : List Frame) :
    Bool → Driver Bench → Prop
  /-- What is unread is not for the client, and stays where it is. -/
  | foreign {d' : Driver Bench} (unread : v ≠ []) (other : d.packet.link ≠ link.val.toUInt8)
    (packet : d'.packet = d.packet) (left : d'.Stores v frames) : Flushed link d v frames true d'
  /-- All payload was for the client, and nothing of it is left. -/
  | emptied {d' : Driver Bench} (begun : v ≠ [] → d.packet.link = link.val.toUInt8)
    (own : ∀ f ∈ frames, f.link = link) (left : d'.Stores [] []) : Flushed link d v frames true d'
  /-- The first frame that is for another link is held, with all of its payload. -/
  | stopped {d' : Driver Bench} {mine rest : List Frame} {f : Frame}
    (begun : v ≠ [] → d.packet.link = link.val.toUInt8) (order : frames = mine ++ f :: rest)
    (own : ∀ g ∈ mine, g.link = link) (other : f.link ≠ link)
    (packet : d'.packet = f.packet f.payload.length) (left : d'.Stores f.payload rest) :
    Flushed link d v frames true d'
  /-- The time is over while there is payload for the client. -/
  | late {d' : Driver Bench} {v' : Bytes} {rest : List Frame}
    (begun : v ≠ [] → d.packet.link = link.val.toUInt8) (skims : Skims link v frames v' rest)
    (unread : v' ≠ []) (packet : d'.packet.link = link.val.toUInt8) (left : d'.Stores v' rest) :
    Flushed link d v frames false d'

/-- A byte that is unread is read, and the handle is kept. -/
theorem wp_read_stored (h : w.driver.Stores (x :: u) frames)
    (hlink : w.driver.packet.link = link.val.toUInt8) {Q : Option UInt8 × Client → Wifi Bench → Prop}
    (hQ : ∀ d, d.Stores u frames → d.packet.link = link.val.toUInt8 →
      Q (some x, ⟨some link.val.toUInt8⟩) { w with driver := d }) :
    wp cut (Client.read ⟨some link.val.toUInt8⟩) Q w := by
  unfold Client.read getByte available
  rw [wp_bind, wp_onDriver]
  refine h.wp_available_own (List.cons_ne_nil x u) hlink fun hremaining => ?_
  rw [if_neg hremaining]
  simp only [wp_bind, Attempt.wp_run, wp_tryDriver]
  exact h.wp_receiveByte hlink fun d hd hlink' => hQ d hd hlink'

/-- A round that has found data for the client reads a byte of it, unless the time is over. -/
theorem wp_flushFound_stored {start maxWait : UInt32} (h : w.driver.Stores (x :: u) frames)
    (hlink : w.driver.packet.link = link.val.toUInt8)
    {Q : Round Client (Bool × Client) → Wifi Bench → Prop}
    (late : ∀ d, d.Stores (x :: u) frames → d.packet.link = link.val.toUInt8 →
      Q (.finish (false, ⟨some link.val.toUInt8⟩)) { w with driver := d })
    (read : ∀ d, d.Stores u frames → d.packet.link = link.val.toUInt8 →
      Q (.again ⟨some link.val.toUInt8⟩) { w with driver := d }) :
    wp cut (flushFound start maxWait ⟨some link.val.toUInt8⟩) Q w := by
  unfold flushFound Wifi.onDevice elapsed
  rw [wp_bind, wp_onDriver, wp_onEngine, wp_onDevice, wp_bind]
  refine h.stream.millis fun b hb _ => ?_
  have hstill := h.still hb
  rw [wp_pure]
  split
  · exact late _ hstill hlink
  · rw [wp_bind]
    exact wp_read_stored (w := { w with driver := _ }) hstill hlink fun d hd hlink' => read d hd hlink'

/-- **The flush is at payload that is for its client**, or between two frames. -/
structure Flushing (link : Fin 4) (w : Wifi Bench) (v : Bytes) (frames : List Frame) (c : Client)
    (w' : Wifi Bench) : Prop where
  handle : c = ⟨some link.val.toUInt8⟩
  table : w'.links = w.links
  stands : ∃ v' rest, Skims link v frames v' rest ∧ w'.driver.Stores v' rest ∧
    (v' ≠ [] → w'.driver.packet.link = link.val.toUInt8)

/-- **A round of a flush** takes a byte that is for the client, or ends the flush. -/
theorem wp_flush_round {w₁ : Wifi Bench} {start maxWait : UInt32} {c : Client}
    (hbegun : v ≠ [] → w.driver.packet.link = link.val.toUInt8) (h : Flushing link w v frames c w₁) :
    wp True (do if (← c.available) = 0 then return .finish (true, c) else c.flushFound start maxWait)
      (afterRound (Flushing link w v frames) fun r w' => r.2 = ⟨some link.val.toUInt8⟩ ∧
        w'.links = w.links ∧ Flushed link w.driver v frames r.1 w'.driver) w₁ := by
  obtain ⟨rfl, hlinks, v', rest, hskims, hstores, hown⟩ := h
  have found {d : Driver Bench} {v' : Bytes} {rest : List Frame} (hv' : v' ≠ [])
      (hskims : Skims link v frames v' rest) (hd : d.Stores v' rest)
      (hlink : d.packet.link = link.val.toUInt8) :
      wp True (flushFound start maxWait ⟨some link.val.toUInt8⟩)
        (afterRound (Flushing link w v frames) fun r w' => r.2 = ⟨some link.val.toUInt8⟩ ∧
          w'.links = w.links ∧ Flushed link w.driver v frames r.1 w'.driver) { w₁ with driver := d } := by
    obtain ⟨x, u, rfl⟩ := List.exists_cons_of_ne_nil hv'
    refine wp_flushFound_stored hd hlink (fun d' hd' hlink' => ?_) fun d' hd' hlink' => ?_
    · exact ⟨rfl, hlinks, .late hbegun hskims hv' hlink' hd'⟩
    · exact ⟨rfl, hlinks, u, rest, hskims.take, hd', fun _ => hlink'⟩
  rw [wp_bind]
  unfold available
  rw [wp_onDriver]
  by_cases hv' : v' = []
  case neg =>
    refine hstores.wp_available_own hv' (hown hv') fun hremaining => ?_
    rw [if_neg hremaining]
    exact found hv' hskims hstores (hown hv')
  subst hv'
  obtain ⟨mine, horder, hmine⟩ := hskims.passed
  cases rest with
  | nil =>
    refine hstores.wp_available_end fun d hd => ?_
    rw [List.append_nil] at horder
    rw [if_pos rfl]
    exact ⟨rfl, hlinks, .emptied hbegun (horder ▸ hmine) hd⟩
  | cons f rest =>
    have hpayload : f.payload ≠ [] := (hstores.plain f List.mem_cons_self).1
    refine hstores.wp_available_next fun d hd hpacket => ?_
    have hlink : d.packet.link = f.link.val.toUInt8 := by rw [hpacket, Frame.packet]
    by_cases hf : f.link = link
    · rw [hf] at hlink
      rw [if_pos (Packet.isFor_iff.2 hlink), if_neg (hd.remaining_ne_zero hpayload)]
      exact found hpayload (hskims.next hf) hd hlink
    · have hother : d.packet.link ≠ link.val.toUInt8 := by
        intro heq
        rw [hlink] at heq
        exact hf (toUInt8_inj.1 heq)
      rw [if_neg (mt Packet.isFor_iff.1 hother), if_pos rfl]
      exact ⟨rfl, hlinks, .stopped hbegun horder hmine hf hpacket hd⟩

/-- **The flush of a client takes the payload that is for its link**, up to the first frame that is not. -/
theorem wp_flush_stored {maxWait : UInt32} (h : w.driver.Stores v frames) :
    wp True (Client.flush ⟨some link.val.toUInt8⟩ maxWait) (fun r w' =>
      r.2 = ⟨some link.val.toUInt8⟩ ∧ w'.links = w.links ∧
        Flushed link w.driver v frames r.1 w'.driver) w := by
  rw [flush_eq, wp_bind]
  unfold Wifi.onDevice
  rw [wp_onDriver, wp_onEngine, wp_onDevice]
  refine h.stream.millis fun b hb _ => ?_
  have hstill := h.still hb
  rw [wp_bind, wp_get]
  by_cases hforeign : v ≠ [] ∧ w.driver.packet.link ≠ link.val.toUInt8
  · -- the first look finds the packet of another link
    obtain ⟨hv, hother⟩ := hforeign
    rw [wp_loop_succ, wp_bind]
    unfold available
    rw [wp_onDriver]
    refine hstill.wp_available_other hv hother ?_
    rw [if_pos rfl]
    exact ⟨rfl, rfl, .foreign hv hother rfl hstill⟩
  · have hbegun : v ≠ [] → w.driver.packet.link = link.val.toUInt8 := by
      intro hv
      exact Decidable.byContradiction fun hother => hforeign ⟨hv, hother⟩
    refine wp_loop (I := fun _ => Flushing link w v frames) (fun _ _ _ => trivial)
      (fun _ _ _ hflushing => wp_flush_round hbegun hflushing) _ _ _ ?_
    exact ⟨rfl, rfl, v, frames, .started 0, hstill, hbegun⟩

end Client

/-! ### Flushes take what is their own -/

/-- All waits of a driver end that has settled. -/
theorem Driver.Stores.attentive {d : Driver Bench} (h : d.Stores v frames) : d.Attentive := by
  have passes : ∀ timeout, d.engine.device.Passes timeout := Bench.passes_of_step_one h.stream.step
  exact ⟨passes _, passes _, passes _, passes _⟩

/-- **What the flush of a socket comes to** that has frames behind its datagram: the table is as before, what
was unread of the datagram is taken, and the frame that comes next is delivered whole. -/
structure Udp.Flushed (w : Wifi Bench) (frames : List Frame) (w' : Wifi Bench) : Prop where
  table : w'.links = w.links
  left : w'.driver.Stores [] frames
  next : ∀ f rest, frames = f :: rest → ∀ s : Udp, s.link = some f.link.val.toUInt8 → ∀ n,
    ∃ w'', (s.readUpTo n).run w' = .ok (.ok (f.payload.take n)) w'' ∧ w''.links = w.links ∧
      w''.driver.Stores (f.payload.drop n) rest

/-- **A flush takes what is its own, and no more.** With complete frames in the stream, none of them with the
notice of a close, the flush of a socket takes what is unread of its datagram and leaves the frames behind
it. That of a client takes the payload that is for its link up to the first frame that is not, which it
leaves unread, unless it gives up before; handle and table are as before. On any device, a client gives
up only when more than the time allowed has passed. Whatever arrives, and whenever, both return on a clock
that passes the waits of a look and of a read. -/
theorem flush_own :
    (∀ (s : Udp) (w : Wifi Bench) (link : Fin 4) (v : Bytes) (frames : List Frame),
      s.link = some link.val.toUInt8 → w.driver.Stores v frames → v ≠ [] →
        w.driver.packet.link = link.val.toUInt8 → ∃ w', s.flush w = .ok () w' ∧ Udp.Flushed w frames w') ∧
    (∀ (link : Fin 4) (maxWait : UInt32) (w : Wifi Bench) (v : Bytes) (frames : List Frame),
      w.driver.Stores v frames → ∃ r w',
        Client.flush ⟨some link.val.toUInt8⟩ maxWait w = .ok (r, ⟨some link.val.toUInt8⟩) w' ∧
          w'.links = w.links ∧ Client.Flushed link w.driver v frames r w'.driver) ∧
    (∀ (σ : Type) [Device σ] (c c' : Client) (maxWait : UInt32) (w w' : Wifi σ),
      c.flush maxWait w = .ok (false, c') w' → ∃ start w₁ passed w₂,
        Wifi.onDevice Device.millis w = .ok start w₁ ∧
          Wifi.onDevice (elapsed start) w₂ = .ok passed w' ∧ maxWait < passed) ∧
    ∀ w : Wifi Bench, w.driver.Attentive → (∀ s : Udp, ∃ w', s.flush w = .ok () w') ∧
      ∀ (c : Client) (maxWait : UInt32), ∃ r w', c.flush maxWait w = .ok r w' := by
  refine ⟨fun s w link v frames hs h hv hlink => ?_, fun link maxWait w v frames h => ?_,
    fun σ _ c c' maxWait w w' hrun => ?_, fun w h => ⟨fun s => ?_, fun c maxWait => ?_⟩⟩
  · have hwp : wp False s.flush (fun _ w' => w'.links = w.links ∧ w'.driver.Stores [] frames) w :=
      Udp.wp_flush_stored hs h hv hlink fun d hd => ⟨rfl, hd⟩
    obtain ⟨_, w', hrun, htable, hleft⟩ := wp_false_iff.1 hwp
    refine ⟨w', hrun, htable, hleft, ?_⟩
    rintro f rest rfl s' hs' n
    have hread : wp False (s'.readUpTo n).run (fun r w'' => r = .ok (f.payload.take n) ∧
        w''.links = w.links ∧ w''.driver.Stores (f.payload.drop n) rest) w' :=
      Attempt.wp_run.2 (Udp.wp_readUpTo_next hs' hleft fun d hd => ⟨rfl, htable, hd⟩)
    obtain ⟨_, w'', hrun', rfl, htable', hrest⟩ := wp_false_iff.1 hread
    exact ⟨w'', hrun', htable', hrest⟩
  · obtain ⟨⟨r, c⟩, w', hrun⟩ := Client.exists_flush h.attentive ⟨some link.val.toUInt8⟩ maxWait
    obtain ⟨hc, htable, hflushed⟩ := wp_of_ok (Client.wp_flush_stored h) hrun
    obtain rfl : c = ⟨some link.val.toUInt8⟩ := hc
    exact ⟨r, w', hrun, htable, hflushed⟩
  · exact wp_of_ok Client.wp_flush_late hrun rfl
  · obtain ⟨_, w', hrun, -⟩ := (s.returns_flush h).exists_run (Engine.AtPace.refl w.driver.engine)
    exact ⟨w', hrun⟩
  · exact Client.exists_flush h c maxWait

/-- Two bytes for link 2, and one for link 0. -/
def lastForOther : List Frame :=
  [{ link := ⟨2, by decide⟩, sender := none, payload := utf8 "cd", payload_lt := by decide,
      spaced := false, closed := false },
    { link := ⟨0, by decide⟩, sender := none, payload := utf8 "e", payload_lt := by decide,
      spaced := true, closed := false }]

/-- Two bytes of a packet for link 2 are unread, and these frames wait behind them. -/
def midPacket : Wifi Bench where
  driver :=
    { engine := { device := { rx := utf8 "ab" ++ lastForOther.flatMap Frame.wire } }
      packet := { link := 2, remaining := 2 } }

theorem midPacket_stores : midPacket.driver.Stores (utf8 "ab") lastForOther where
  remaining := rfl
  dropped _ := rfl
  stream := ⟨rfl, rfl, rfl⟩
  plain := by decide
  field := by decide

/-- The socket of link 2 drops the two bytes. Its client drops all four, or gives up at once when it has no
time to wait. -/
theorem flush_own_midPacket :
    (∃ w', Udp.flush { link := some 2 } midPacket = .ok () w' ∧
      Udp.Flushed midPacket lastForOther w') ∧
    (∃ w', Client.flush ⟨some 2⟩ 1000 midPacket = .ok (true, ⟨some 2⟩) w' ∧
      ∃ f ∈ lastForOther, f.link ≠ 2 ∧ w'.driver.packet = f.packet f.payload.length) ∧
    ∃ w' start w₁ passed w₂, Client.flush ⟨some 2⟩ 0 midPacket = .ok (false, ⟨some 2⟩) w' ∧
      Wifi.onDevice Device.millis midPacket = .ok start w₁ ∧
        Wifi.onDevice (elapsed start) w₂ = .ok passed w' ∧ 0 < passed := by
  obtain ⟨hsocket, hclient, hlate, hreturns⟩ := flush_own
  have hstores := midPacket_stores
  have hne : utf8 "ab" ≠ [] := by decide
  refine ⟨hsocket { link := some 2 } midPacket 2 _ _ rfl hstores hne rfl, ?_, ?_⟩
  · obtain ⟨r, w', hrun, -, hflushed⟩ := hclient 2 1000 midPacket _ _ hstores
    have hvalue : value? (Client.flush ⟨some 2⟩ 1000) midPacket = some (true, ⟨some 2⟩) := by decide +kernel
    obtain rfl : r = true := (Prod.mk.inj (eq_of_value? hvalue hrun)).1
    refine ⟨w', hrun, ?_⟩
    cases hflushed with
    | foreign unread other => exact absurd rfl other
    | emptied begun own => exact absurd own (by decide)
    | @stopped _ mine rest f begun order own other packet =>
      exact ⟨f, order ▸ List.mem_append_right mine List.mem_cons_self, other, packet⟩
  · obtain ⟨r, w', hrun⟩ := (hreturns midPacket hstores.attentive).2 ⟨some 2⟩ 0
    have hvalue : value? (Client.flush ⟨some 2⟩ 0) midPacket = some (false, ⟨some 2⟩) := by decide +kernel
    obtain rfl := eq_of_value? hvalue hrun
    obtain ⟨start, w₁, passed, w₂, hstart, hpassed, hlt⟩ := hlate Bench _ _ _ _ _ hrun
    exact ⟨w', start, w₁, passed, w₂, hrun, hstart, hpassed, hlt⟩

end EspWifi
