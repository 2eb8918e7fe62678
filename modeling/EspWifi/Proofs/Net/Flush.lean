import EspWifi.Proofs.Modem.Attention
import EspWifi.Proofs.Net.Sends

/-!
# Flushes return

A flush reads byte by byte and looks for data before each of them, and a look may read the header of
another packet. A socket counts the bytes of its datagram first and reads as often. A client has no such
count: it goes on until a look finds nothing, and gives up when data is still arriving after the time
that it was allowed.

* `Udp.returns_flush`, `Client.exists_flush`: **flushes return**, whatever arrives and whenever.
* `Client.wp_flush_late`: a client gives up only when the time is over.
-/

namespace EspWifi

open Run

/-! ### Flushes return -/

namespace Wifi

variable {α : Type} {w : Wifi Bench}

theorem returns_onDevice {op : Run Bench α} (hop : ∀ b, wp False op (fun _ b' => b'.step = b.step) b) :
    Returns w.AtPace (onDevice op) :=
  returns_onDriver (Driver.returns_onDevice hop)

/-- A look for data on the link of a handle, if it has one. -/
theorem returns_look (h : w.driver.Attentive) (link : Option UInt8) :
    Returns w.AtPace (match link with
      | none => return 0
      | some link => onDriver (Driver.available (some link)) : Run (Wifi Bench) UInt16) := by
  cases link with
  | none => exact .pure _
  | some link => exact returns_onDriver (h.returns_available _)

theorem returns_release (link : UInt8) : Returns w.AtPace (release link : Run (Wifi Bench) Unit) :=
  .modify fun _ h => h

end Wifi

namespace Udp

variable {w : Wifi Bench}

theorem returns_available (h : w.driver.Attentive) (u : Udp) :
    Returns w.AtPace (u.available : Run (Wifi Bench) UInt16) := Wifi.returns_look h u.link

theorem returns_read (h : w.driver.Attentive) (u : Udp) :
    Returns w.AtPace (u.read : Run (Wifi Bench) (Option UInt8)) := by
  unfold Udp.read getByte
  refine .bind (u.returns_available h) fun n => ?_
  split
  · exact .pure _
  cases u.link with
  | none => exact .pure _
  | some link =>
    refine .bind (Wifi.returns_tryDriver (h.returns_receiveByte link false)) fun r => ?_
    cases r with
    | ok received => exact .pure _
    | error f => exact .pure _

/-- **The flush of a socket returns**, as it reads as often as it has counted. -/
theorem returns_flush (h : w.driver.Attentive) (u : Udp) :
    Returns w.AtPace (u.flush : Run (Wifi Bench) Unit) := by
  have skips (n : Nat) : Returns w.AtPace (u.skip n : Run (Wifi Bench) Unit) := by
    induction n with
    | zero => exact .pure _
    | succ n ih =>
      refine .bind (u.returns_read h) fun byte => ?_
      cases byte with
      | none => exact .pure _
      | some b => exact ih
  exact .bind (u.returns_available h) fun n => skips n.toNat

end Udp

namespace Client

/-- A round of a flush that has found data. -/
def flushFound {σ : Type} [Device σ] (start maxWait : UInt32) (c : Client) :
    Run (Wifi σ) (Round Client (Bool × Client)) := do
  if maxWait < (← Wifi.onDevice (elapsed start)) then return .finish (false, c)
  else
    let (_, c) ← c.read
    return .again c

theorem flush_eq {σ : Type} [Device σ] (c : Client) (maxWait : UInt32) :
    (c.flush maxWait : Run (Wifi σ) (Bool × Client)) = (do
      let start ← Wifi.onDevice Device.millis
      let rounds := Device.backlog (← get).device + 2
      Run.loop rounds (fun c => do
        if (← c.available) = 0 then return .finish (true, c)
        else c.flushFound start maxWait) c) := rfl

variable {w : Wifi Bench} {c : Client} {start maxWait : UInt32}

theorem returns_available (h : w.driver.Attentive) (c : Client) :
    Returns w.AtPace (c.available : Run (Wifi Bench) UInt16) := Wifi.returns_look h c.link

theorem returns_read (h : w.driver.Attentive) (c : Client) :
    Returns w.AtPace (c.read : Run (Wifi Bench) (Option UInt8 × Client)) := by
  unfold Client.read getByte
  refine .bind (c.returns_available h) fun n => ?_
  split
  · exact .pure _
  cases c.link with
  | none => exact .pure _
  | some link =>
    refine .bind (Wifi.returns_tryDriver (h.returns_receiveByte link false)) fun r => ?_
    cases r with
    | ok received =>
      dsimp only
      split
      · exact .bind (Wifi.returns_release link) fun _ => .pure _
      · exact .pure _
    | error f => exact .pure _

/-- A look that finds data has found it for the link of the client. -/
theorem wp_available_todo :
    wp True c.available (fun n w' => n ≠ 0 → ∃ link, c.link = some link ∧
      w'.driver.Unread link ∧ w'.driver.todo ≤ w.driver.todo) w := by
  unfold available
  cases c.link with
  | none => exact fun hn => absurd rfl hn
  | some link =>
    refine wp_onDriver.2 (wp_mono (Driver.wp_available_todo link) fun n d hfound hn => ?_)
    exact ⟨link, rfl, hfound hn⟩

/-- A read of data that was found makes less to do. -/
theorem wp_read_todo {link : UInt8} (hc : c.link = some link) (h : w.driver.Unread link) :
    wp True c.read (fun _ w' => w'.driver.todo < w.driver.todo) w := by
  have hown : w.driver.packet.isFor (some link) = true := Packet.isFor_iff.2 h.link
  have hremaining : w.driver.packet.remaining ≠ 0 := beq_eq_false_iff_ne.1 h.undrained
  unfold Client.read getByte available
  rw [hc, wp_bind, wp_onDriver]
  refine Driver.wp_available_held h.dropped h.undrained ?_
  rw [if_pos hown, if_neg hremaining, wp_bind]
  refine wp_focus.2 (wp_mono (Driver.wp_receiveByte_todo h) fun r d hless => ?_)
  cases r with
  | error f => exact hless
  | ok received =>
    dsimp only
    split
    · exact hless
    · exact hless

/-- A round that has found data ends the flush, or makes less to do. -/
theorem wp_flushFound_todo (h : w.driver.Attentive) {w₁ : Wifi Bench} (hpace : w.AtPace w₁) {link : UInt8}
    (hc : c.link = some link) (hunread : w₁.driver.Unread link) :
    wp False (c.flushFound start maxWait)
      (afterRound (fun _ w₂ => w.AtPace w₂ ∧ w₂.driver.todo < w₁.driver.todo) fun _ _ => True) w₁ := by
  unfold flushFound Wifi.onDevice elapsed
  rw [wp_bind, wp_onDriver, wp_onEngine, wp_onDevice, wp_bind, Bench.wp_millis, wp_pure]
  dsimp only
  split
  · trivial
  -- a look at the clock changes nothing but the time
  let d : Driver Bench := { w₁.driver with
    engine := { w₁.driver.engine with device := w₁.driver.engine.device.tick.2 } }
  have hunread' : d.Unread link := ⟨hunread.dropped, hunread.undrained, hunread.link⟩
  have hpace' : w.AtPace { w₁ with driver := d } := ⟨hpace.timeouts, hpace.step⟩
  rw [wp_bind]
  refine wp_mono (wp_and (wp_read_todo hc hunread') (c.returns_read h _ hpace')) ?_
  rintro ⟨_, c'⟩ w₂ ⟨hless, hpace₂⟩
  exact ⟨hpace₂, hless⟩

/-- **The flush of a client returns.** Each of its rounds reads a byte of the stream or gives up a packet,
and a packet is read from the stream as well. -/
theorem exists_flush (h : w.driver.Attentive) (c : Client) (maxWait : UInt32) :
    ∃ r w', c.flush maxWait w = .ok r w' := by
  have hwp : wp False (c.flush maxWait) (fun _ _ => True) w := by
    have looks : Returns w.AtPace (Wifi.onDevice Device.millis) := Wifi.returns_onDevice Bench.pace.millis
    rw [flush_eq, wp_bind]
    refine wp_mono (looks w (Engine.AtPace.refl w.driver.engine)) fun start w₁ hpace => ?_
    rw [wp_bind, wp_get]
    refine wp_loop (I := fun n _ w' => w.AtPace w' ∧ w'.driver.todo < n) ?_ ?_ _ _ _ ⟨hpace, ?_⟩
    · rintro _ _ ⟨-, hlt⟩
      exact Nat.not_lt_zero _ hlt
    · rintro n c w₂ ⟨hpace₂, hlt⟩
      rw [wp_bind]
      refine wp_mono (wp_and wp_available_todo (c.returns_available h w₂ hpace₂)) ?_
      rintro m w₃ ⟨hfound, hpace₃⟩
      split
      · trivial
      rename_i hm
      obtain ⟨link, hc, hunread, hle⟩ := hfound hm
      refine wp_mono (wp_flushFound_todo h hpace₃ hc hunread) fun r w₄ hr => ?_
      cases r with
      | finish _ => trivial
      | again c' => exact ⟨hr.1, Nat.lt_of_lt_of_le hr.2 (Nat.le_trans hle (Nat.le_of_lt_succ hlt))⟩
    · have hbacklog := w₁.device.backlog_eq_length_stream
      have hle := w₁.driver.todo_le
      rw [hbacklog]
      exact Nat.lt_succ_of_le hle
  obtain ⟨r, w', hrun, -⟩ := wp_false_iff.1 hwp
  exact ⟨r, w', hrun⟩

/-! ### Flushes that give up -/

/-- **A flush gives up only when the time is over**: the last thing that it did was to look at the clock, and
more than the time allowed had passed since it began. -/
theorem wp_flush_late {σ : Type} [Device σ] {w : Wifi σ} :
    wp True (c.flush maxWait) (fun r w' => r.1 = false → ∃ start w₁ passed w₂,
      Wifi.onDevice Device.millis w = .ok start w₁ ∧
        Wifi.onDevice (elapsed start) w₂ = .ok passed w' ∧ maxWait < passed) w := by
  rw [flush_eq, wp_bind]
  refine wp_mono (wp_and_result (wp_any (Q := fun _ _ => True) fun _ _ => trivial)) ?_
  rintro start w₁ ⟨-, hstart⟩
  rw [wp_bind, wp_get]
  refine wp_loop (I := fun _ _ _ => True) (fun _ _ _ => trivial) ?_ _ _ _ trivial
  rintro n c w₂ -
  rw [wp_bind]
  refine wp_any fun m w₃ => ?_
  split
  · nofun
  unfold flushFound
  rw [wp_bind]
  refine wp_mono (wp_and_result (wp_any (Q := fun _ _ => True) fun _ _ => trivial)) ?_
  rintro passed w₄ ⟨-, hpassed⟩
  split
  case isTrue hlate => exact fun _ => ⟨start, w₁, passed, w₃, hstart, hpassed, hlate⟩
  case isFalse =>
    rw [wp_bind]
    exact wp_any fun _ _ => trivial

end Client

end EspWifi
