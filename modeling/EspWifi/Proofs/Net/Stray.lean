import EspWifi.Net.Server
import EspWifi.Proofs.Modem.Receiving
import EspWifi.Proofs.Net.Slots
import EspWifi.Proofs.Session.Line

/-!
# Packets for links that do not exist

A server learns of its clients by polling: a poll looks for a packet and hands out a client for its
link. The header of a packet may name a link that the table does not have. Then nobody is handed out,
but the packet has been taken, and while it is held no other header is looked for.

* `Wifi.HoldsStray`: a packet is held that nobody can read.
* `Driver.wp_available_all`: a look for any link tells what is left of the packet.
* `Server.polls`: one poll after the other.
* `Server.accept_none`: **a poll that hands out nobody keeps a stray packet and no other**, and a stray
  packet ends all polling.
-/

namespace EspWifi

open Run

variable {σ : Type}

/-- **The packet that is held is for a link that does not exist**, and it is not drained. -/
structure Wifi.HoldsStray (w : Wifi σ) : Prop where
  undrained : w.driver.packet.isDrained = false
  noLink : linkCount ≤ w.driver.packet.link.toNat
  dropped : w.driver.engine.dropped = 0

variable [Device σ]

/-- A look for any link tells what is left of the packet, and bytes that were thrown away before it are
no longer counted. -/
theorem Driver.wp_available_all (L : Ledger σ) {d : Driver σ} {Q : UInt16 → Driver σ → Prop}
    (hQ : ∀ d', d'.engine.dropped = 0 → Q d'.packet.remaining d') :
    wp True (available none) Q d := by
  -- a packet that is drained makes way for the next one, if there is one
  have look : ∀ d₁ : Driver σ, d₁.packet.isDrained = true → d₁.engine.dropped = 0 →
      wp True (do if ← nextPacket then pending none else return 0) Q d₁ := by
    intro d₁ hdrained h0
    rw [wp_bind]
    refine wp_nextPacket_moves L fun r c d₂ h₂ hr _ => ?_
    have hd₂ := hQ d₂ (h₂.dropped.trans h0)
    cases r with
    | true => exact hd₂
    | false =>
      have hzero : d₂.packet.remaining = 0 := by
        rcases hr rfl with hp | hp
        · rw [hp]
          exact beq_iff_eq.1 hdrained
        · rw [hp]
      rw [hzero] at hd₂
      exact hd₂
  unfold available
  rw [wp_bind]
  refine wp_forgetStalePacket L (fun h0 => ?_) fun d₁ _ _ h0 hdrained => ?_
  · rw [wp_bind, wp_get, wp_ite]
    split
    · rename_i hdrained
      exact look d hdrained h0
    · exact hQ d h0
  · rw [wp_bind, wp_get, if_pos hdrained]
    exact look d₁ hdrained h0

namespace Server

/-- The clients that `n` polls hand out. -/
def polls : Nat → Run (Wifi σ) (List Client)
  | 0 => return []
  | n + 1 => do
    let client ← accept
    return client.toList ++ (← polls n)

variable {L : Ledger σ} {w w' : Wifi σ}

/-- **A poll hands out a client for the link of the payload that it finds**, if the table has that link. -/
theorem wp_accept_found (L : Ledger σ) {Q : Option Client → Wifi σ → Prop}
    (look : wp True (Driver.available none) (fun n d =>
      (n = 0 → Q none { w with driver := d }) ∧
      (n ≠ 0 → ∀ d', d.Moves L d' [] [] →
        (∀ t, d.packet.link.toNat < linkCount →
          Q (some ⟨some d.packet.link⟩) { w with driver := d', links := t }) ∧
        (linkCount ≤ d.packet.link.toNat → Q none { w with driver := d' }))) w.driver) :
    wp True accept Q w := by
  unfold accept
  rw [wp_bind, wp_onDriver]
  refine wp_mono look fun n d ⟨nothing, found⟩ => ?_
  rw [wp_ite]
  split
  · rename_i hzero
    exact nothing hzero
  rename_i hn
  rw [wp_bind, wp_get, wp_bind]
  refine wp_onDriver.2 (Driver.wp_record_moves L fun d' h' => ?_)
  obtain ⟨known, unknown⟩ := found hn d' h'
  rw [wp_bind, Attempt.wp_run]
  refine Wifi.wp_claim (fun t ht => ?_) fun f hf => ?_
  · exact known t (LinkTable.lt_of_isClaimed ((LinkTable.isClaimed_claim ht).2 (.inl rfl)))
  · -- a link of the table can always be claimed
    refine unknown (Nat.le_of_not_lt fun hlt => ?_)
    obtain ⟨t, ht⟩ := LinkTable.claim_ok (t := w.links) hlt
    rw [show w.links.claim d.packet.link = .error f from hf] at ht
    cases ht

/-- A poll that hands out nobody has found a packet that is drained, or one that is for nobody. -/
theorem wp_accept_packet (L : Ledger σ) :
    wp True accept (fun r w' => r = none → ∃ n d, Driver.available none w.driver = .ok n d ∧
      w'.driver.packet = d.packet ∧ n = d.packet.remaining ∧ w'.driver.engine.dropped = 0 ∧
      (n = 0 ∨ linkCount ≤ d.packet.link.toNat)) w := by
  refine wp_accept_found L (wp_mono (wp_and_result (Driver.wp_available_all L
    (Q := fun n d => n = d.packet.remaining ∧ d.engine.dropped = 0) fun d h0 => ⟨rfl, h0⟩)) ?_)
  rintro n d ⟨⟨hn, h0⟩, hrun⟩
  constructor
  · exact fun hzero _ => ⟨n, d, hrun, rfl, hn, h0, .inl hzero⟩
  · intro _ d' h'
    refine ⟨fun t _ => nofun, fun hlink _ => ?_⟩
    exact ⟨n, d, hrun, h'.packet, hn, h'.engine.dropped.trans h0, .inr hlink⟩

/-- **A poll hands out nobody while a stray packet is held**, and it reads nothing. -/
theorem wp_accept_stray (L : Ledger σ) (h : w.HoldsStray) :
    wp True accept (fun r w' => r = none ∧ w'.HoldsStray ∧ w'.driver.packet = w.driver.packet ∧
      L.moves w.device w'.device [] []) w := by
  refine wp_accept_found L (Driver.wp_available_held h.dropped h.undrained ⟨fun hzero => ?_, ?_⟩)
  · have hdrained : w.driver.packet.isDrained = true := beq_iff_eq.2 hzero
    exact absurd (h.undrained.symm.trans hdrained) Bool.false_ne_true
  · intro _ d' h'
    have hpacket : d'.packet = w.driver.packet := h'.packet
    refine ⟨fun t hlt => absurd hlt (Nat.not_lt.2 h.noLink), fun _ => ⟨rfl, ?_, hpacket, h'.engine.device⟩⟩
    exact ⟨hpacket ▸ h.undrained, hpacket ▸ h.noLink, h'.engine.dropped.trans h.dropped⟩

/-- **A stray packet ends all polling**: however often it is polled, nobody is handed out, nothing is
read, and the packet is still held. -/
theorem wp_polls_stray (L : Ledger σ) (h : w.HoldsStray) (n : Nat) :
    wp True (polls n) (fun clients w' => clients = [] ∧ w'.driver.packet = w.driver.packet ∧
      L.moves w.device w'.device [] []) w := by
  induction n generalizing w with
  | zero => exact ⟨rfl, rfl, L.refl _⟩
  | succ n ih =>
    unfold polls
    rw [wp_bind]
    refine wp_mono (wp_accept_stray L h) ?_
    rintro _ w₁ ⟨rfl, h₁, hpacket, hmoves⟩
    rw [wp_bind]
    refine wp_mono (ih h₁) ?_
    rintro _ w₂ ⟨rfl, hpacket₂, hmoves₂⟩
    exact ⟨rfl, hpacket₂.trans hpacket, L.trans hmoves hmoves₂⟩

/-- **A poll that hands out nobody keeps a stray packet and no other.** If its look for data found
nothing, the packet is drained afterwards. If it found payload, then for a link that does not exist,
and that packet is held: however often it is polled from there, nobody is handed out, nothing is read,
and the packet stays. -/
theorem accept_none (L : Ledger σ) (h : accept w = .ok none w') :
    ∃ n d, Driver.available none w.driver = .ok n d ∧ w'.driver.packet = d.packet ∧
      (n = 0 ↔ w'.driver.packet.isDrained = true) ∧ (n ≠ 0 ↔ w'.HoldsStray) ∧
      (w'.HoldsStray → ∀ k clients w'', polls k w' = .ok clients w'' →
        clients = [] ∧ w''.driver.packet = w'.driver.packet ∧
          L.moves w'.device w''.device [] []) := by
  obtain ⟨n, d, hrun, hpacket, rfl, h0, hlink⟩ := wp_of_ok (wp_accept_packet L) h rfl
  have hdrained : d.packet.remaining = 0 ↔ w'.driver.packet.isDrained = true := by
    rw [hpacket]
    exact beq_iff_eq.symm
  refine ⟨_, d, hrun, hpacket, hdrained, ⟨fun hn => ?_, fun hs hn => ?_⟩, fun hs k clients w'' hk => ?_⟩
  · rcases hlink with hzero | hlink
    · exact absurd hzero hn
    · exact ⟨Bool.eq_false_iff.2 (mt hdrained.2 hn), hpacket ▸ hlink, h0⟩
  · exact Bool.false_ne_true (hs.undrained.symm.trans (hdrained.1 hn))
  · exact wp_of_ok (Q := fun clients w'' => clients = [] ∧ w''.driver.packet = w'.driver.packet ∧
      L.moves w'.device w''.device [] []) (wp_polls_stray L hs k) hk

/-- A network that is sent five bytes on link 4, and two on link 0 behind them. -/
def strayHello : Wifi Bench where
  driver := { engine := { device := { rx := utf8 "+IPD,4,5:HELLO+IPD,0,2:hi" } } }

theorem stray_hello_held :
    ∃ w', accept strayHello = .ok none w' ∧ w'.HoldsStray ∧
      ∀ k clients w'', polls k w' = .ok clients w'' → clients = [] ∧
        w''.driver.packet.remaining = 5 := by
  have hvalue : value? (do
      let client ← accept
      return (client, (← get).driver.packet.remaining)) strayHello = some (none, 5) := by
    decide +kernel
  obtain ⟨client, w', hrun, hlast⟩ := value?_bind_eq_some.1 hvalue
  obtain ⟨rfl, hremaining⟩ : client = none ∧ w'.driver.packet.remaining = 5 := by
    simpa using Option.some.inj hlast
  obtain ⟨n, d, -, hpacket, hzero, hstray, hpolls⟩ := accept_none Bench.ledger hrun
  have hn : n ≠ 0 := by
    intro hn
    have := beq_iff_eq.1 (hzero.1 hn)
    rw [hremaining] at this
    exact absurd this (by decide)
  have hs := hstray.1 hn
  refine ⟨w', hrun, hs, fun k clients w'' hk => ?_⟩
  obtain ⟨hclients, hpacket', -⟩ := hpolls hs k clients w'' hk
  exact ⟨hclients, by rw [hpacket', hremaining]⟩

/-- **A packet for a link that does not exist hides the one behind it.** -/
theorem stray_hides_next :
    value? (do
      let clients ← polls 3
      let w ← get
      return (clients, w.driver.packet.remaining, w.device.rx)) strayHello =
      some ([], 5, utf8 "HELLO+IPD,0,2:hi") := by
  decide +kernel

end Server

end EspWifi
