import EspWifi.Proofs.Modem.Receiving
import EspWifi.Proofs.Session.Stream

/-!
# The notice of a close

When the last byte of a packet is read, the driver looks at the byte behind it. If a notice of a close may
begin with that byte, the driver takes the link for closed and skips what it takes for the notice,
whether it turns out to be one or not.

* `OpensNotice`: the bytes with which a notice may begin; `BeginsWithNotice`: bytes that do begin with
  one.
* `NoticeSought`: what a look for a notice makes of the bytes behind a payload.
* `Driver.receiveByte_last`: **the answer depends on a single byte**, and if that does not begin a notice
  nothing behind the payload is read.
-/

namespace EspWifi

open Run

/-- A notice that `link` was closed may begin with this byte. -/
def OpensNotice (link x : UInt8) : Prop := x = ascii '0' + link ∨ x = ascii ','

/-- **The bytes begin with a notice that `link` was closed.** -/
def BeginsWithNotice (link : UInt8) (w : Bytes) : Prop :=
  utf8 closedTrailer <+: w ∨ (ascii '0' + link) :: utf8 closedTrailer <+: w

instance (link : UInt8) (w : Bytes) : Decidable (BeginsWithNotice link w) :=
  inferInstanceAs (Decidable (_ ∨ _))

/-- Bytes that begin with a notice begin with a byte that a notice may begin with. -/
theorem BeginsWithNotice.opens {link : UInt8} {w : Bytes} (h : BeginsWithNotice link w) :
    ∃ x, w.head? = some x ∧ OpensNotice link x := by
  rcases h with ⟨rest, rfl⟩ | ⟨rest, rfl⟩
  · exact ⟨ascii ',', rfl, .inr rfl⟩
  · exact ⟨_, rfl, .inl rfl⟩

/-- **What a look for a notice makes of the bytes `tail` behind the payload**: it has seen `seen` of them
and left `rest`. A link is taken for closed on the evidence of one byte. -/
structure NoticeSought (link : UInt8) (tail rest : Bytes) (seen : Option UInt8) (closed : Bool) :
    Prop where
  /-- All that can be seen is the first byte. -/
  first : seen = none ∨ seen = tail.head?
  closed_iff : closed = true ↔ ∃ y, seen = some y ∧ OpensNotice link y
  untouched : closed = false → rest = tail
  /-- What is skipped ends at the first `,CLOSED`, or there is none in it. -/
  skipped : closed = true → ∃ c, tail = c ++ rest ∧
    (Scan.Decided (some (utf8 closedTrailer)) false c .found ∨
      Scan.Silent (some (utf8 closedTrailer)) false c)

namespace Driver

variable {d d' : Driver Bench} {link : UInt8}

/-- A look for a notice sees the next byte if it has arrived. -/
theorem wp_sawClose_sought :
    wp True (sawClose link) (fun closed d' => ∃ seen,
      NoticeSought link d.engine.device.stream d'.engine.device.stream seen closed ∧
      (d.engine.device.arrivals.items = [] → seen = d.engine.device.stream.head?)) d := by
  unfold sawClose delay
  rw [wp_bind, wp_onEngine]
  refine Bench.streamLedger.wp_still (Bench.streamLedger.delay · 5) fun _ e₁ h₁ _ => ?_
  have hflow := h₁.device rfl
  rw [wp_bind, wp_onEngine, wp_onDevice, Bench.wp_peek]
  obtain ⟨hhead, hsettled⟩ := e₁.device.head?_deliver
  have hdeliver := e₁.device.stream_deliver
  -- the wait has taken nothing, so what is seen is what comes behind the payload
  rw [← show d.engine.device.stream = e₁.device.stream from hflow.stream] at hhead hsettled hdeliver
  generalize e₁.device.deliver.rx.head? = seen at hhead hsettled
  generalize he₂ : ({ e₁ with device := e₁.device.deliver } : Engine Bench) = e₂
  have hstream : e₂.device.stream = d.engine.device.stream := by
    rw [← he₂]
    exact hdeliver
  have hitems := fun h => hsettled (hflow.settled h)
  dsimp only
  split
  case isFalse hopens =>
    refine ⟨seen, ⟨hhead, ⟨nofun, ?_⟩, fun _ => hstream, nofun⟩, hitems⟩
    rintro ⟨x, rfl, rfl | rfl⟩
    · exact absurd (.inl rfl) hopens
    · exact absurd (.inr rfl) hopens
  case isTrue hopens =>
    have hseen : ∃ x, seen = some x ∧ OpensNotice link x := by
      rcases hopens with rfl | rfl
      · exact ⟨_, rfl, .inl rfl⟩
      · exact ⟨_, rfl, .inr rfl⟩
    have closed : ∀ (c : Bytes) (d' : Driver Bench), e₂.Moves Bench.streamLedger d'.engine c [] →
        (Scan.Decided (some (utf8 closedTrailer)) false c .found ∨
          Scan.Silent (some (utf8 closedTrailer)) false c) →
        wp True (do logDebug "Connection closed"; return true) (fun closed d' => ∃ seen,
          NoticeSought link d.engine.device.stream d'.engine.device.stream seen closed ∧
          (d.engine.device.arrivals.items = [] → seen = d.engine.device.stream.head?)) d' := by
      intro c d' h hc
      rw [wp_bind]
      refine wp_record_moves Bench.streamLedger fun d'' h'' => ?_
      have htail := ((h.still h''.engine).device rfl).stream
      rw [hstream] at htail
      exact ⟨seen, ⟨hhead, ⟨fun _ => hseen, fun _ => rfl⟩, nofun, fun _ => ⟨c, htail, hc⟩⟩, hitems⟩
    simp only [wp_bind, wp_timeouts, wp_onEngine]
    unfold Engine.skipPast
    rw [wp_bind]
    refine Bench.streamLedger.wp_awaitTag_decided (fun c s e₃ h₃ _ hc => ?_) fun c e₃ h₃ _ hc => ?_
    · obtain rfl := Scan.eq_found_of hc.verdict
      exact closed c _ h₃ (.inl hc)
    · have hmissed : (!(Scan.timedOut == Scan.found)) = true := rfl
      rw [wp_pure, if_pos hmissed, wp_bind]
      refine wp_record_moves Bench.streamLedger fun d'' h'' => ?_
      exact closed c d'' (h₃.still h''.engine) (.inr hc)

/-- **The last byte of a packet is read, and the answer hangs on the byte behind it.** The packet has one
byte left, and `tail` follows it on the line, at any times. The byte is handed out. The link is said to
be closed exactly if a byte was seen behind it with which a notice may begin; all that can be seen is
the first byte of `tail`, and it is seen if everything is there already. If the link is not said to be
closed, nothing of `tail` is taken. If it is, everything is taken up to the first `,CLOSED`, or bytes
without one until the time is up. So no notice that is there is missed, but others are made up. -/
theorem receiveByte_last {x : UInt8} {tail : Bytes} {r : Received} (hlink : d.packet.link = link)
    (hlast : d.packet.remaining = 1) (hstream : d.engine.device.stream = x :: tail)
    (h : (receiveByte link false).run d = .ok (.ok r) d') :
    r.byte = x ∧ (∃ seen, NoticeSought link tail d'.engine.device.stream seen r.closed ∧
      (d.engine.device.arrivals.items = [] → seen = tail.head?)) ∧
      (d.engine.device.arrivals.items = [] → BeginsWithNotice link tail → r.closed = true) := by
  let Q : Received → Driver Bench → Prop := fun r d' => r.byte = x ∧
    ∃ seen, NoticeSought link tail d'.engine.device.stream seen r.closed ∧
      (d.engine.device.arrivals.items = [] → seen = tail.head?)
  have hwp : Attempt.wp True (receiveByte link false) Q (fun _ _ => True) d := by
    unfold receiveByte
    rw [Attempt.wp_bind, Attempt.wp_lift]
    refine wp_forgetStalePacket Bench.streamLedger (fun _ => ?_) fun d₁ _ _ _ hdrained => ?_
    case refine_2 =>
      -- a packet that was lost is not read
      rw [Attempt.wp_bind, Attempt.wp_get]
      simp only [if_pos (Or.inr hdrained : link ≠ d₁.packet.link ∨ d₁.packet.isDrained = true)]
      trivial
    have hvalid : ¬ (link ≠ d.packet.link ∨ d.packet.isDrained = true) := by
      rw [hlink, Packet.isDrained, hlast]
      simp
    rw [Attempt.wp_bind, Attempt.wp_get]
    simp only [if_neg hvalid, Attempt.wp_bind, Attempt.wp_lift, wp_timeouts, wp_onEngine,
      Bool.false_eq_true, if_false]
    refine Bench.streamLedger.wp_awaitByte fun b e₁ h₁ => ?_
    have hflow := h₁.device rfl
    cases b with
    | none =>
      simp only [Attempt.wp_bind, Attempt.wp_lift]
      exact wp_giveUpPacket Bench.streamLedger fun _ _ _ => trivial
    | some b =>
      obtain ⟨rfl, htail⟩ : x = b ∧ tail = e₁.device.stream :=
        List.cons.inj (hstream.symm.trans hflow.stream)
      have hdrained : ({ d.packet with remaining := d.packet.remaining - 1 } : Packet).isDrained = true := by
        rw [hlast]
        rfl
      simp only [Attempt.wp_bind, Attempt.wp_lift, Attempt.wp_get]
      unfold countByte
      rw [wp_modify, if_pos hdrained, Attempt.wp_bind, Attempt.wp_lift]
      refine wp_mono wp_sawClose_sought ?_
      rintro closed d' ⟨seen, hsought, hitems⟩
      rw [← show tail = _ from htail] at hsought hitems
      exact ⟨rfl, seen, hsought, fun h => hitems (hflow.settled h)⟩
  have hdone : Attempt.outcome Q (fun _ _ => True) (.ok r) d' := wp_of_ok hwp h
  obtain ⟨hbyte, seen, hsought, hitems⟩ := hdone
  refine ⟨hbyte, ⟨seen, hsought, hitems⟩, fun hsettled hnotice => ?_⟩
  obtain ⟨y, hy, hopens⟩ := hnotice.opens
  exact hsought.closed_iff.2 ⟨y, (hitems hsettled).trans hy, hopens⟩

/-- A driver that has one byte of a packet on link 0 left to read, behind which a client connects to
link 0. -/
def lastByte : Driver Bench where
  engine := { device := { rx := utf8 "a0,CONNECT\r\n" } }
  packet := { link := 0, remaining := 1 }

theorem lastByte_closed :
    ∃ r d', (receiveByte 0 false).run lastByte = .ok (.ok r) d' ∧ r.byte = ascii 'a' ∧
      r.closed = true := by
  have hvalue : value? (do
      let r ← (receiveByte 0 false).run
      return r.toOption.isSome) lastByte = some true := by
    decide +kernel
  obtain ⟨r, d', hrun, hlast⟩ := value?_bind_eq_some.1 hvalue
  cases r with
  | error f => exact absurd (Option.some.inj hlast) Bool.false_ne_true
  | ok r =>
    have hstream : lastByte.engine.device.stream = ascii 'a' :: utf8 "0,CONNECT\r\n" := by decide
    obtain ⟨hbyte, ⟨seen, hsought, hitems⟩, -⟩ := receiveByte_last rfl rfl hstream hrun
    obtain rfl := hitems rfl
    exact ⟨r, d', hrun, hbyte, hsought.closed_iff.2 ⟨_, rfl, .inl rfl⟩⟩

/-- **A link that opens is taken for one that was closed**, and the news of it is lost. -/
theorem connect_taken_for_close :
    ¬ BeginsWithNotice 0 (utf8 "0,CONNECT\r\n") ∧
      value? (do
        let r ← (receiveByte 0 false).run
        let d ← get
        return (r.toOption.map fun r => (r.byte, r.closed), d.engine.device.stream)) lastByte =
        some (some (ascii 'a', true), []) := by
  constructor
  · decide
  · decide +kernel

end Driver

end EspWifi
