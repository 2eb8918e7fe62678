import EspWifi.Proofs.Modem.Recorded
import EspWifi.Proofs.Net.Slots

/-!
# Clients and the record

Accepting a client and reading what it has sent adds nothing to the record of the link but the bytes that
were read. A client that is accepted is on one of the links, and no more is read than was asked for.
-/

namespace EspWifi.Recorder

open Run LinkEvent

variable {σ α : Type} [Device σ] [Pins σ] {P : LinkEvent → Prop} {w : Wifi (Recorder σ)}

theorem keeps_onDriver {m : Run (Driver (Recorder σ)) α} (h : Keeps (Adds P) m) :
    Keeps (Adds P) (onDriver m) := h.focus fun _ _ h => h

theorem keeps_tryDriver {x : Attempt (Driver (Recorder σ)) α} (h : Attempt.Keeps (Adds P) x) :
    Attempt.Keeps (Adds P) (tryDriver x) := h.focus fun _ _ h => h

theorem keeps_wifiLog (level : Level) (message : String) :
    Keeps (Adds P) (MonadLog.record level message : Run (Wifi (Recorder σ)) Unit) :=
  keeps_onDriver (keeps_driverLog level message)

theorem keeps_wifiDelay (hP : ∀ ms, P (paused ms)) (ms : UInt32) :
    Keeps (Adds P) (Wifi.delay ms : Run (Wifi (Recorder σ)) Unit) :=
  keeps_onDriver (keeps_pause hP ms)

theorem keeps_lampSet (lamp : Lamp) (on : Bool) :
    Keeps (Adds P) (Wifi.onDevice (lamp.set on) : Run (Wifi (Recorder σ)) Lamp) :=
  keeps_onDriver (keeps_onEngine (keeps_onDevice (.bind (keeps_drive _ _) fun _ => .pure _)))

theorem keeps_claim (link : UInt8) :
    Attempt.Keeps (Adds P) (Wifi.claim link : Attempt (Wifi (Recorder σ)) Unit) :=
  .bind (.lift .get) fun _ => .bind (.liftResult _) fun _ => .lift (keeps_modify fun _ => ⟨rfl, rfl⟩)

theorem keeps_release (link : UInt8) :
    Keeps (Adds P) (Wifi.release link : Run (Wifi (Recorder σ)) Unit) :=
  keeps_modify fun _ => ⟨rfl, rfl⟩

variable (hP : ∀ b, P (heard b))

include hP

theorem keeps_accept : Keeps (Adds P) (Server.accept : Run (Wifi (Recorder σ)) _) := by
  refine .bind (keeps_onDriver (keeps_packetAvailable hP _)) fun _ => .ite (.pure _) ?_
  refine .bind .get fun _ => .bind (keeps_wifiLog _ _) fun _ => .bind (keeps_claim _) fun r => ?_
  cases r <;> exact .pure _

theorem keeps_readUpTo (c : Client) (n : Nat) :
    Attempt.Keeps (Adds P) (c.readUpTo n : Attempt (Wifi (Recorder σ)) Bytes) := by
  unfold Client.readUpTo Client.available
  refine .bind (.lift ?_) fun _ => .ite (.pure _) ?_
  · cases c.link with
    | none => exact .pure _
    | some link => exact keeps_onDriver (keeps_packetAvailable hP _)
  · cases c.link with
    | none => exact .throw _
    | some link => exact keeps_tryDriver (keeps_receive hP _ _)

end EspWifi.Recorder

namespace EspWifi

open Run

variable {σ : Type} [Device σ] {w : Wifi σ}

/-- A link that can be claimed is one of those the module keeps. -/
theorem LinkTable.lt_of_claim {t t' : LinkTable} {link : UInt8} (h : t.claim link = .ok t') :
    link.toNat < linkCount := lt_of_update? (update?_of_claim h)

/-- **A client that is accepted is on one of the links.** -/
theorem Server.wp_accept_link :
    wp True accept (fun r _ => ∀ c, r = some c → ∃ link : UInt8, link ≤ 3 ∧ c = ⟨some link⟩) w := by
  refine wp_mono wp_accept ?_
  rintro r w' (⟨rfl, -⟩ | ⟨link, rfl, hclaim⟩) c hc
  · cases hc
  · obtain rfl := Option.some.inj hc
    have hlt : link.toNat < 4 := LinkTable.lt_of_claim hclaim
    exact ⟨link, UInt8.le_iff_toNat_le.2 (by simp; omega), rfl⟩

theorem Driver.wp_readPayload_length {d : Driver σ} (timeout : UInt32) (n : Nat) :
    Attempt.wp True (readPayload timeout n) (fun x _ => x.length = n) (fun _ _ => True) d := by
  induction n generalizing d with
  | zero => exact (rfl : ([] : Bytes).length = 0)
  | succ n ih =>
    rw [readPayload, Attempt.wp_bind, Attempt.wp_lift]
    refine wp_any fun byte d => ?_
    cases byte with
    | none =>
      rw [Attempt.wp_bind, Attempt.wp_lift]
      exact wp_any fun _ _ => trivial
    | some b =>
      rw [Attempt.wp_bind, Attempt.wp_lift]
      refine wp_any fun _ d => ?_
      rw [Attempt.wp_bind]
      exact Attempt.wp_mono ih (fun x _ hx => congrArg (· + 1) hx) fun _ _ h => h

theorem Driver.wp_receive_length {d : Driver σ} (link : UInt8) (n : Nat) :
    Attempt.wp True (receive link n) (fun x _ => x.length ≤ n) (fun _ _ => True) d := by
  unfold receive
  rw [Attempt.wp_bind, Attempt.wp_lift]
  refine wp_any fun _ d => ?_
  rw [Attempt.wp_bind, Attempt.wp_get]
  dsimp only
  split
  · trivial
  rw [Attempt.wp_bind, Attempt.wp_lift]
  refine wp_any fun timeouts d => ?_
  refine Attempt.wp_mono (wp_readPayload_length _ _) (fun x _ hx => ?_) fun _ _ h => h
  rw [hx]
  exact Nat.min_le_left _ _

/-- **No more is read than was asked for.** -/
theorem Client.wp_readUpTo_length (c : Client) (n : Nat) :
    Attempt.wp True (c.readUpTo n) (fun x _ => x.length ≤ n) (fun _ _ => True) w := by
  unfold readUpTo
  rw [Attempt.wp_bind, Attempt.wp_lift]
  refine wp_any fun waiting w => ?_
  split
  · exact Nat.zero_le n
  cases c.link with
  | none => trivial
  | some link => exact wp_tryDriver.2 (Driver.wp_receive_length link n)

end EspWifi
