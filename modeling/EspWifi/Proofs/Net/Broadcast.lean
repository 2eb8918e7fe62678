import EspWifi.Proofs.Net.Sends

/-!
# Broadcasts

A broadcast sends to one link after the other, while each send that fails takes its link from the table
and writes to the shared stream. So what a broadcast reports and leaves of the table is what its sends
report and leave.

* `Server.Round`: **a row of sends**, each with its result.
* `Server.Round.slot?_failed`, `Server.Round.slot?_kept`: what it leaves of the table.
* `Server.Accounted`, `Server.broadcast_accounts`: **what a broadcast comes to.**
-/

namespace EspWifi

open Run

namespace Server

variable {σ : Type} [Device σ] {L : Ledger σ} {data : Bytes}

/-- **A row of sends.** From `w` on, the bytes are sent on one link after the other, each send with its
result, until `w'` is reached. -/
inductive Round (L : Ledger σ) (data : Bytes) :
    Wifi σ → List (UInt8 × Except Fault Nat) → Wifi σ → Prop
  | done {w : Wifi σ} : Round L data w [] w
  | next {w w₁ w' : Wifi σ} {link : UInt8} {r : Except Fault Nat} {c : Client}
    {sends : List (UInt8 × Except Fault Nat)} (send : Client.send ⟨some link⟩ data w = .ok (r, c) w₁)
    (attempted : Client.Attempted L ⟨some link⟩ link (.bytes data) w (r, c) w₁)
    (rest : Round L data w₁ sends w') : Round L data w ((link, r) :: sends) w'

namespace Round

variable {w w' : Wifi σ} {sends : List (UInt8 × Except Fault Nat)}

/-- A send counts all of the bytes, or none. -/
theorem sum_eq (h : Round L data w sends w') :
    (sends.map fun send => sentBytes send.2).sum = data.length * sends.countP (·.2.isOk) := by
  induction h with
  | done => rfl
  | next send attempted rest ih =>
    rw [List.map_cons, List.sum_cons, ih]
    cases attempted with
    | sent =>
      rw [List.countP_cons_of_pos rfl, Nat.mul_succ, Nat.add_comm]
      rfl
    | closed =>
      rw [List.countP_cons_of_neg Bool.false_ne_true]
      exact Nat.zero_add _

/-- Sends do not claim a link. -/
theorem slot?_free (h : Round L data w sends w') {link : UInt8} (hfree : w.links.slot? link = some {}) :
    w'.links.slot? link = some {} := by
  induction h with
  | done => exact hfree
  | @next w w₁ w' other r c sends send attempted rest ih =>
    apply ih
    cases attempted with
    | sent table => rwa [table]
    | closed frees =>
      by_cases heq : link = other
      · rw [heq]
        exact frees.freed
      · rwa [frees.others link heq]

/-- **A link on which a send failed is free.** -/
theorem slot?_failed (h : Round L data w sends w') {link : UInt8} {f : Fault}
    (hfailed : (link, .error f) ∈ sends) : w'.links.slot? link = some {} := by
  induction h with
  | done => cases hfailed
  | next send attempted rest ih =>
    rcases List.mem_cons.1 hfailed with heq | hmem
    · obtain ⟨rfl, rfl⟩ := Prod.mk.inj heq
      cases attempted with
      | closed frees => exact rest.slot?_free frees.freed
    · exact ih hmem

/-- **All other links are as before.** -/
theorem slot?_kept (h : Round L data w sends w') {link : UInt8}
    (hkept : ∀ f, (link, .error f) ∉ sends) : w'.links.slot? link = w.links.slot? link := by
  induction h with
  | done => rfl
  | @next w w₁ w' other r c sends send attempted rest ih =>
    rw [ih fun f hmem => hkept f (List.mem_cons_of_mem _ hmem)]
    cases attempted with
    | sent table => rw [table]
    | closed frees =>
      refine frees.others link ?_
      rintro rfl
      exact hkept _ List.mem_cons_self

end Round

/-- The sends of a broadcast are such a row. -/
theorem wp_outcomes_round (L : Ledger σ) {links : List UInt8}
    (hlinks : ∀ link ∈ links, link.toNat < linkCount) (w : Wifi σ) :
    wp True (outcomes data links)
      (fun sends w' => Round L data w sends w' ∧ sends.map (·.1) = links) w := by
  induction links generalizing w with
  | nil => exact ⟨.done, rfl⟩
  | cons link links ih =>
    have hlink := hlinks link List.mem_cons_self
    have hattempt := Client.wp_message (c := ⟨some link⟩) L rfl hlink (.bytes data) w
    unfold outcomes
    rw [wp_bind]
    refine wp_mono (wp_and_result hattempt) ?_
    rintro ⟨r, c⟩ w₁ ⟨hattempted, hsend⟩
    rw [wp_bind]
    refine wp_mono (ih (fun other hother => hlinks other (List.mem_cons_of_mem _ hother)) w₁) ?_
    rintro sends w' ⟨hround, rfl⟩
    exact ⟨.next hsend hattempted hround, rfl⟩

variable {t : LinkTable} {link : UInt8}

theorem mem_audience : link ∈ audience t ↔ t.isClaimed link = true ∧ link ≠ serverLink := by
  unfold audience
  rw [List.mem_filter, LinkTable.mem_claimed, decide_eq_true_iff]

theorem audience_ascending (t : LinkTable) : (audience t).Pairwise (· < ·) :=
  t.claimed_ascending.sublist List.filter_sublist

/-- **What a broadcast comes to** that has returned `n`. -/
structure Accounted (L : Ledger σ) (data : Bytes) (w : Wifi σ) (sends : List (UInt8 × Except Fault Nat))
    (n : Nat) (w' : Wifi σ) : Prop where
  /-- The sends are all that was done. -/
  row : Round L data w sends w'
  ascending : (sends.map (·.1)).Pairwise (· < ·)
  /-- The links in use were sent to, but for that of the server. -/
  mem_links : ∀ link, link ∈ sends.map (·.1) ↔ w.links.isClaimed link = true ∧ link ≠ serverLink
  count : n = data.length * sends.countP (·.2.isOk)
  freed : ∀ link f, (link, .error f) ∈ sends → w'.links.slot? link = some {}
  kept : ∀ link, (∀ f, (link, .error f) ∉ sends) → w'.links.slot? link = w.links.slot? link
  server : w'.links.slot? serverLink = w.links.slot? serverLink

/-- **A broadcast is one send on each link in use**, in ascending order, that of the server left out.
Whatever the device makes of the calls: it returns as many times the number of bytes as sends have
succeeded, and of the table it changes nothing but that the links on which a send failed are free. On a
clock that passes the waits of a send it returns. -/
theorem broadcast_accounts (L : Ledger σ) (data : Bytes) :
    (∀ (w : Wifi σ) n w', broadcast data w = .ok n w' → ∃ sends, Accounted L data w sends n w') ∧
      ∀ w : Wifi Bench, w.Patient → ∃ n w', broadcast data w = .ok n w' := by
  constructor
  · intro w n w' hrun
    have haudience : ∀ link ∈ audience w.links, link.toNat < linkCount :=
      fun link hlink => LinkTable.lt_of_isClaimed (mem_audience.1 hlink).1
    have hbroadcast : wp True (broadcast data) (fun n w' => ∃ sends, Round L data w sends w' ∧
        sends.map (·.1) = audience w.links ∧ n = (sends.map fun send => sentBytes send.2).sum) w := by
      unfold broadcast
      rw [wp_bind, wp_get, sendEach_eq, wp_bind]
      refine wp_mono (wp_outcomes_round L haudience w) ?_
      rintro sends w' ⟨hround, hlinks⟩
      exact ⟨sends, hround, hlinks, rfl⟩
    obtain ⟨sends, hround, hlinks, rfl⟩ := wp_of_ok hbroadcast hrun
    refine ⟨sends, hround, ?_, ?_, hround.sum_eq, fun _ _ => hround.slot?_failed,
      fun _ => hround.slot?_kept, hround.slot?_kept fun f hmem => ?_⟩
    · rw [hlinks]
      exact audience_ascending w.links
    · intro link
      rw [hlinks]
      exact mem_audience
    · have hserver : serverLink ∈ audience w.links := hlinks ▸ List.mem_map_of_mem hmem
      exact (mem_audience.1 hserver).2 rfl
  · intro w h
    have hsends (links : List UInt8) : Returns w.AtPace (sendEach data links : Run (Wifi Bench) Nat) := by
      induction links with
      | nil => exact .pure _
      | cons link links ih =>
        exact .bind (Client.returns_message (c := ⟨some link⟩) h rfl (.bytes data)) fun _ =>
          .bind ih fun _ => .pure _
    obtain ⟨n, w', hrun, -⟩ := (hsends (audience w.links)).exists_run (Engine.AtPace.refl w.driver.engine)
    exact ⟨n, w', hrun⟩

/-- Two of three sends succeed. -/
theorem broadcast_accounts_inUse :
    let w := (Session.inUse [0, 1, 2, 3] ["> ", "\r\nSEND OK\r\n", "> ", "\r\nERROR\r\n", "\r\nOK\r\n",
      "> ", "\r\nSEND OK\r\n"]).wifi
    w.Patient ∧ ∃ sends w', broadcast (utf8 "hi") w = .ok 4 w' ∧
      Accounted Bench.ledger (utf8 "hi") w sends 4 w' ∧ sends.countP (·.2.isOk) = 2 := by
  intro w
  have hpatient : w.Patient := Client.patient_inUse _ _
  obtain ⟨haccounts, hreturns⟩ := broadcast_accounts Bench.ledger (utf8 "hi")
  obtain ⟨n, w', hrun⟩ := hreturns w hpatient
  have hvalue : value? (broadcast (utf8 "hi")) w = some 4 := by decide +kernel
  obtain rfl := eq_of_value? hvalue hrun
  obtain ⟨sends, haccounted⟩ := haccounts w 4 w' hrun
  have hlength : (utf8 "hi").length = 2 := by decide
  have hcount := haccounted.count
  rw [hlength] at hcount
  exact ⟨hpatient, sends, w', hrun, haccounted, by omega⟩

end Server

end EspWifi
