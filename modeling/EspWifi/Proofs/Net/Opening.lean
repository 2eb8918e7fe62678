import EspWifi.Proofs.Modem.Script
import EspWifi.Proofs.Net.Slots
import EspWifi.Proofs.Session.Line
import EspWifi.Proofs.Session.Relative

/-!
# Operations that take a link

A client that connects and a socket that listens have the module open the greatest link that is free.
They take it when the module has done so, and if it does not, the table and all handles are as before. A
server takes its link before it asks, so a start that fails leaves it taken.

* `LinkTable.Takes`: the greatest free link was taken, and nothing else has changed.
* `openText`, `Ledger.SentOpening`: the command that opens a link, and that it was sent.
* `Opening`: the operations that have the module open a link; `Session.Opened`: what they do then.
* `Session.opening_atomic`: **a link is opened and taken, or nothing has changed.**
* `Session.failed_start`: **what a start that fails leaves behind.**
-/

namespace EspWifi

open Run

/-! ### The table -/

namespace LinkTable

variable {t t' t'' : LinkTable} {link : UInt8} {port port' : UInt16}

/-- **In `t'` the greatest free link of `t` is taken**, with a local port. Nothing else has changed. -/
structure Takes (t : LinkTable) (link : UInt8) (port : UInt16) (t' : LinkTable) : Prop where
  isLink : link.toNat < linkCount
  free : t.isClaimed link = false
  greatest : ∀ other : UInt8, other.toNat < linkCount → t.isClaimed other = false → other ≤ link
  taken : t'.slot? link = some { inUse := true, port := port }
  others : ∀ other, other ≠ link → t'.slot? other = t.slot? other

/-- A claim leaves the port of the link as it is. -/
theorem takes_of_claim (hfree : t.free? = some link) (hclaim : t.claim link = .ok t') :
    t.Takes link (t.port link) t' := by
  obtain ⟨hunused, hlink⟩ := isClaimed_of_free? hfree
  have hslot : t.slot? link = some t.slots[link.toNat] := Vector.getElem?_eq_getElem hlink
  have hslots := slot?_update? (update?_of_claim hclaim)
  refine ⟨hlink, hunused, fun other => le_of_free? hfree, ?_, fun other hother => ?_⟩
  · rw [hslots, if_pos rfl, port, hslot]
    rfl
  · rw [hslots, if_neg hother]

theorem Takes.setPort (h : t.Takes link port t') (hport : t'.setPort link port' = .ok t'') :
    t.Takes link port' t'' := by
  have hslots := slot?_update? (update?_of_setPort hport)
  refine ⟨h.isLink, h.free, h.greatest, ?_, fun other hother => ?_⟩
  · rw [hslots, if_pos rfl, h.taken]
    rfl
  · rw [hslots, if_neg hother, h.others other hother]

end LinkTable

variable {σ τ α : Type} [Device σ] [OnDevice τ σ] {L : Ledger σ}

/-! ### What is sent -/

/-- **The command that opens a link.** -/
def openText (host : String) (port : UInt16) (link : UInt8) : Transport → String
  | .tcp => s!"AT+CIPSTART={link},\"TCP\",\"{host}\",{port}"
  | .ssl => s!"AT+CIPSTART={link},\"SSL\",\"{host}\",{port}"
  | .udp => s!"AT+CIPSTART={link},\"UDP\",\"{host}\",0,{port},2"

/-- The line that comes before it. -/
def preparation : Transport → Bytes
  | .ssl => lineBytes "AT+CIPSSLSIZE=4096"
  | .tcp | .udp => []

namespace Ledger

/-- **The command that opens a link was sent**, behind a beginning of the line that comes before it. -/
def SentOpening (L : Ledger σ) (t t' : τ) (host : String) (port : UInt16) (link : UInt8)
    (transport : Transport) : Prop :=
  ∃ part, part <+: preparation transport ∧
    L.Sent t t' (part ++ lineBytes (openText host port link transport))

/-- Nothing else is sent if nothing is sent before and after it. -/
theorem SentOpening.quiet {t t₁ t₂ t₃ : τ} {host : String} {port : UInt16} {link : UInt8}
    {transport : Transport} (h : L.SentOpening t₁ t₂ host port link transport) (before : L.Sent t t₁ [])
    (after : L.Sent t₂ t₃ []) : L.SentOpening t t₃ host port link transport := by
  obtain ⟨part, hpart, hsent⟩ := h
  have hall := (before.trans hsent).trans after
  rw [List.nil_append, List.append_nil] at hall
  exact ⟨part, hpart, hall⟩

end Ledger

/-- **A link that is opened was asked for.** -/
theorem Driver.sends_openText (host : String) (port : UInt16) (link : UInt8) (transport : Transport) :
    Attempt.Sends L (openLink host port link transport : Attempt (Driver σ) Unit) fun r w =>
      r = .ok () → ∃ part, part <+: preparation transport ∧
        w = part ++ lineBytes (openText host port link transport) := by
  have command {pieces : List String} (timeout : UInt32)
      (htext : String.join pieces = openText host port link transport) :
      Attempt.Sends L (Driver.command pieces timeout : Attempt (Driver σ) Unit) fun r w =>
        r = .ok () → w = lineBytes (openText host port link transport) := by
    refine (sends_command pieces timeout).mono fun r w hw hr => ?_
    rw [hr] at hw
    rw [hw.eq_of_ok, htext]
    rfl
  unfold openLink
  refine sends_logged (.after quiet_timeouts fun timeouts => ?_)
  cases transport
  case tcp | udp =>
    refine (command _ ?_).mono fun _ _ hw hr => ⟨[], List.nil_prefix, hw hr⟩
    unfold openText
    simp only [List.cons_append, List.nil_append, String.join_cons, String.join_nil, String.append_empty,
      String.append_assoc]
    rfl
  case ssl =>
    -- whether the line before it was answered, or sent in full, makes no difference
    unfold Attempt.Sends lift
    rw [ExceptT.run_bind_lift]
    refine .bind (sends_setUp _) ?_
    rintro _ w ⟨r, hw⟩
    refine Run.Sends.mono (command _ ?_) fun r' w' hw' hr => ⟨w, hw.isPrefix, by rw [hw' hr]⟩
    unfold openText
    simp only [List.cons_append, List.nil_append, String.join_cons, String.join_nil, String.append_empty,
      String.append_assoc]
    rfl

/-- Notes in the log are always taken: to write one returns. -/
def Device.Notes (σ : Type) [Device σ] : Prop :=
  ∀ (d : σ) level message, wp False (Device.record level message) (fun _ _ => True) d

theorem Bench.notes : Device.Notes Bench := fun _ _ _ => wp_record.2 trivial

variable (L) {w : Wifi σ}

namespace Wifi

/-- A note in the log sends nothing. -/
theorem wp_record_sent {level : Level} {message : String} {Q : Unit → Wifi σ → Prop}
    {F : Fault → Wifi σ → Prop}
    (hQ : ∀ d, L.Sent w { w with driver := d } [] → Q () { w with driver := d }) :
    Attempt.wp True (MonadLog.record level message) Q F w := by
  have hquiet := Driver.quiet_record (L := L) level message w.driver
  refine Attempt.wp_lift.2 (wp_onDriver.2 (wp_mono hquiet ?_))
  rintro _ d ⟨_, hsent, rfl⟩
  exact hQ d hsent

/-- Such a note is taken. -/
theorem wp_record_taken (hnotes : Device.Notes σ) {level : Level} {message : String}
    {Q : Unit → Wifi σ → Prop} {F : Fault → Wifi σ → Prop}
    (hQ : ∀ d, L.Sent w { w with driver := d } [] → Q () { w with driver := d }) :
    Attempt.wp False (MonadLog.record level message) Q F w := by
  have hreturns : wp False (Device.record level message : Run σ Unit) (fun _ _ => True) w.device :=
    hnotes _ _ _
  refine wp_of_returns (wp_record_sent L hQ) (Attempt.wp_run.2 (Attempt.wp_lift.2 ?_))
  exact wp_onDriver.2 (wp_onEngine.2 (wp_onDevice.2 hreturns))

/-- A link that is opened was asked for. -/
theorem wp_openLink_sent {host : String} {port : UInt16} {link : UInt8} {transport : Transport}
    {Q : Unit → Wifi σ → Prop} {F : Fault → Wifi σ → Prop}
    (hQ : ∀ d, L.SentOpening w { w with driver := d } host port link transport →
      Q () { w with driver := d }) (hF : ∀ f d, F f { w with driver := d }) :
    Attempt.wp True (tryDriver (Driver.openLink host port link transport)) Q F w := by
  refine wp_tryDriver.2 (wp_mono (Driver.sends_openText (L := L) host port link transport w.driver) ?_)
  rintro r d ⟨b, hsent, hopening⟩
  cases r with
  | ok _ =>
    obtain ⟨part, hpart, rfl⟩ := hopening rfl
    exact hQ d ⟨part, hpart, hsent⟩
  | error f => exact hF f d

end Wifi

namespace Client

variable {host : String} {port : UInt16} {transport : Transport}

/-- **A client that connects has its link asked for.** -/
theorem wp_connect_sent :
    Attempt.wp True (connect host port transport)
      (fun _ w' => ∃ link, w.links.free? = some link ∧ L.SentOpening w w' host port link transport)
      (fun _ _ => True) w := by
  unfold connect
  rw [Attempt.wp_bind]
  refine Wifi.wp_record_sent L fun d hd => ?_
  rw [Attempt.wp_bind, Attempt.wp_lift, Wifi.wp_freeLink]
  dsimp only
  cases w.links.free? with
  | none =>
    rw [Attempt.wp_bind]
    exact Wifi.wp_record_sent L fun _ _ => trivial
  | some link =>
    rw [Attempt.wp_bind]
    refine Wifi.wp_openLink_sent L (fun d' hopening => ?_) fun _ _ => trivial
    rw [Attempt.wp_bind]
    exact Wifi.wp_claim (fun _ _ => ⟨link, rfl, hopening.quiet hd (.refl _)⟩) fun _ _ => trivial

/-- **Nothing is sent for a client if no link is free.** -/
theorem wp_connect_full (hnotes : Device.Notes σ) (hfull : w.links.free? = none) :
    Attempt.wp False (connect host port transport) (fun _ _ => False)
      (fun f w' => f = .noFreeLink ∧ w'.links = w.links ∧ L.Sent w w' []) w := by
  unfold connect
  rw [Attempt.wp_bind]
  refine Wifi.wp_record_taken L hnotes fun d hd => ?_
  rw [Attempt.wp_bind, Attempt.wp_lift, Wifi.wp_freeLink]
  dsimp only
  rw [hfull, Attempt.wp_bind]
  exact Wifi.wp_record_taken L hnotes fun d' hd' => ⟨rfl, rfl, hd.trans hd'⟩

end Client

namespace Udp

variable {u : Udp} {port : UInt16}

/-- **A socket that listens has its link asked for.** -/
theorem wp_listen_sent :
    Attempt.wp True (u.listen port)
      (fun _ w' => ∃ link, w.links.free? = some link ∧ L.SentOpening w w' "0" port link .udp)
      (fun _ _ => True) w := by
  unfold listen
  rw [Attempt.wp_bind, Attempt.wp_lift, Wifi.wp_freeLink]
  cases w.links.free? with
  | none =>
    rw [Attempt.wp_bind]
    exact Wifi.wp_record_sent L fun _ _ => trivial
  | some link =>
    rw [Attempt.wp_bind]
    refine Wifi.wp_openLink_sent L (fun d hopening => ?_) fun _ _ => trivial
    rw [Attempt.wp_bind]
    refine Wifi.wp_claim (fun _ _ => ?_) fun _ _ => trivial
    rw [Attempt.wp_bind]
    refine Wifi.wp_setPort (fun _ _ => ?_) fun _ _ => trivial
    rw [Attempt.wp_bind]
    exact Wifi.wp_record_sent L fun d' hd' => ⟨link, rfl, hopening.quiet (.refl _) hd'⟩

/-- **Nothing is sent for a socket if no link is free.** -/
theorem wp_listen_full (hnotes : Device.Notes σ) (hfull : w.links.free? = none) :
    Attempt.wp False (u.listen port) (fun _ _ => False)
      (fun f w' => f = .noFreeLink ∧ w'.links = w.links ∧ L.Sent w w' []) w := by
  unfold listen
  rw [Attempt.wp_bind, Attempt.wp_lift, Wifi.wp_freeLink, hfull, Attempt.wp_bind]
  exact Wifi.wp_record_taken L hnotes fun d hd => ⟨rfl, rfl, hd⟩

end Udp

/-! ### Sessions -/

/-- **An operation that has the module open a link.** -/
inductive Opening where
  | connect (c : Nat) (host : String) (port : UInt16) (transport : Transport)
  | listen (u : Nat) (port : UInt16)

namespace Opening

/-- The operation of a session. -/
def action : Opening → Action
  | connect c host port transport => .client c (.connect host port transport)
  | listen u port => .udp u (.listen port)

/-- The host that the module is told. -/
def host : Opening → String
  | connect _ host _ _ => host
  | listen _ _ => "0"

/-- The port that the module is told. -/
def port : Opening → UInt16
  | connect _ _ port _ => port
  | listen _ port => port

def transport : Opening → Transport
  | connect _ _ _ transport => transport
  | listen _ _ => .udp

/-- The local port of the link in the table. One that connects has none of its own. -/
def localPort (t : LinkTable) (link : UInt8) : Opening → UInt16
  | connect _ _ _ _ => t.port link
  | listen _ port => port

/-- The session in which the handle has the link. -/
def bind (s : Session σ) (link : UInt8) : Opening → Session σ
  | connect c _ _ _ => { s with clients := replaceAt s.clients c ⟨some link⟩ }
  | listen u port =>
    { s with udps := replaceAt s.udps u { s.udps u with link := some link, localPort := port } }

end Opening

namespace Session

/-- **The table and all handles are as before.** -/
structure Untouched (s s' : Session σ) : Prop where
  handles : s' = { s with wifi := s'.wifi }
  table : s'.wifi.links = s.wifi.links

/-- **A link was opened**: the greatest free one, which is the one that the module was told, is taken, and
the handle has it. -/
structure Opened (L : Ledger σ) (o : Opening) (s s' : Session σ) (link : UInt8) : Prop where
  takes : s.wifi.links.Takes link (o.localPort s.wifi.links link) s'.wifi.links
  handles : s' = { o.bind s link with wifi := s'.wifi }
  sent : L.SentOpening s s' o.host o.port link o.transport

omit [Device σ] in
theorem replaceAt_self (f : Nat → α) (i : Nat) : replaceAt f i (f i) = f := by
  funext j
  unfold replaceAt
  split
  case isTrue h => rw [h]
  case isFalse => rfl

variable {cut : Prop} {s : Session σ} {i : Nat} {Q : Reply → Session σ → Prop}

omit [Device σ] in
/-- A handle is replaced if the operation succeeds, and stays as it is if it does not. -/
theorem wp_rebind {h : α} {x : Attempt (Wifi σ) α} (store : α → Session σ → Session σ)
    (hstore : ∀ w, store h { s with wifi := w } = { s with wifi := w })
    (hx : Attempt.wp cut x (fun a w => Q .ok (store a { s with wifi := w }))
      (fun f w => Q (.fault f) { s with wifi := w }) s.wifi) :
    wp cut (do
      let r ← onWifi (do return rebind h (← x.run))
      modify (store r.2)
      return r.1) Q s := by
  unfold onWifi
  rw [wp_bind, wp_focus, wp_bind, Attempt.wp_run]
  refine Attempt.wp_mono hx (fun _ _ h => h) fun f w hf => ?_
  show Q (.fault f) (store h { s with wifi := w })
  rwa [hstore]

theorem wp_connect {host : String} {port : UInt16} {transport : Transport}
    (h : Attempt.wp cut (Client.connect host port transport)
      (fun c w => Q .ok { s with wifi := w, clients := replaceAt s.clients i c })
      (fun f w => Q (.fault f) { s with wifi := w }) s.wifi) :
    wp cut (perform (.client i (.connect host port transport))) Q s := by
  refine wp_bind.2 (wp_rebind (fun c s => { s with clients := replaceAt s.clients i c }) (fun w => ?_) h)
  rw [replaceAt_self]

/-- A socket listens, or is pointed at a host. -/
theorem wp_udp {a : UdpAction} {x : Attempt (Wifi σ) Udp}
    (ha : a.perform (s.udps i) = do return rebind (s.udps i) (← x.run))
    (h : Attempt.wp cut x (fun u w => Q .ok { s with wifi := w, udps := replaceAt s.udps i u })
      (fun f w => Q (.fault f) { s with wifi := w }) s.wifi) :
    wp cut (perform (.udp i a)) Q s := by
  show wp cut (do
    let r ← onWifi (a.perform ((← get).udps i))
    modify fun s => { s with udps := replaceAt s.udps i r.2 }
    return r.1) Q s
  rw [wp_bind, wp_get, ha]
  refine wp_rebind (fun u s => { s with udps := replaceAt s.udps i u }) (fun w => ?_) h
  rw [replaceAt_self]

/-- **A link is opened, or nothing has changed.** -/
theorem wp_opening (L : Ledger σ) (o : Opening) :
    wp True (perform o.action) (fun r s' => (∃ f, r = .fault f ∧ s.Untouched s') ∨
      r = .ok ∧ ∃ link, s.Opened L o s' link) s := by
  cases o with
  | connect c host port transport =>
    refine wp_connect (Attempt.wp_mono (Attempt.wp_and Client.wp_connect (Client.wp_connect_sent L)) ?_
      fun f w h => .inl ⟨f, rfl, rfl, h.1⟩)
    rintro _ w ⟨⟨link, hfree, hclaim, rfl⟩, link', hfree', hsent⟩
    obtain rfl : link = link' := Option.some.inj (hfree.symm.trans hfree')
    exact .inr ⟨rfl, link, LinkTable.takes_of_claim hfree hclaim, rfl, hsent⟩
  | listen u port =>
    refine wp_udp rfl (Attempt.wp_mono (Attempt.wp_and Udp.wp_listen (Udp.wp_listen_sent L)) ?_
      fun f w h => .inl ⟨f, rfl, rfl, h.1⟩)
    rintro _ w ⟨⟨link, t, hfree, hclaim, hport, rfl⟩, link', hfree', hsent⟩
    obtain rfl : link = link' := Option.some.inj (hfree.symm.trans hfree')
    exact .inr ⟨rfl, link, (LinkTable.takes_of_claim hfree hclaim).setPort hport, rfl, hsent⟩

/-- **A session in which all links are in use refuses to open one**, and sends nothing. -/
theorem wp_opening_full (L : Ledger σ) (hnotes : Device.Notes σ) (hfull : s.wifi.links.free? = none)
    (o : Opening) :
    wp False (perform o.action)
      (fun r s' => r = .fault .noFreeLink ∧ s.Untouched s' ∧ L.Sent s s' []) s := by
  cases o with
  | connect c host port transport =>
    refine wp_connect (Attempt.wp_mono (Client.wp_connect_full L hnotes hfull) (fun _ _ h => h.elim) ?_)
    rintro _ w ⟨rfl, htable, hsent⟩
    exact ⟨rfl, ⟨rfl, htable⟩, hsent⟩
  | listen u port =>
    refine wp_udp rfl (Attempt.wp_mono (Udp.wp_listen_full L hnotes hfull) (fun _ _ h => h.elim) ?_)
    rintro _ w ⟨rfl, htable, hsent⟩
    exact ⟨rfl, ⟨rfl, htable⟩, hsent⟩

/-- A socket that is not pointed at a host is as before. -/
theorem wp_setRemote {host : String} {port : UInt16} :
    wp True (perform (.udp i (.setRemote host port)))
      (fun r s' => ∀ f, r = .fault f → s.Untouched s') s := by
  refine wp_udp rfl (Attempt.wp_mono Udp.wp_setRemote (fun _ _ _ f hf => ?_) fun _ w h _ _ => ?_)
  · cases hf
  · exact ⟨rfl, h⟩

/-- **A link is opened and taken, or nothing has changed.** An operation that has the module open a link
either fails and leaves the table and all handles as they were, or takes the greatest free link, which is
the one that it has told the module, and binds its handle to it. If all links are in use it fails and
sends nothing. A socket that fails to be pointed at a host is as before, and so is the table. -/
theorem opening_atomic (L : Ledger σ) (s : Session σ) :
    (∀ (o : Opening) (r : Reply) (s' : Session σ), perform o.action s = .ok r s' →
      (∃ f, r = .fault f ∧ s.Untouched s') ∨ r = .ok ∧ ∃ link, s.Opened L o s' link) ∧
    (Device.Notes σ → (∀ link : UInt8, link.toNat < linkCount → s.wifi.links.isClaimed link = true) →
      ∀ o : Opening, ∃ s', perform o.action s = .ok (.fault .noFreeLink) s' ∧ s.Untouched s' ∧
        L.Sent s s' []) ∧
    ∀ (u : Nat) (host : String) (port : UInt16) (f : Fault) (s' : Session σ),
      perform (.udp u (.setRemote host port)) s = .ok (.fault f) s' → s.Untouched s' := by
  refine ⟨fun o r s' hrun => ?_, fun hnotes hfull o => ?_, fun u _ _ f _ hrun => ?_⟩
  · have hopening := wp_of_ok (wp_opening L o) hrun
    exact hopening
  · have hnone := LinkTable.free?_eq_none_iff.2 hfull
    obtain ⟨_, s', hrun, rfl, huntouched, hsent⟩ := wp_false_iff.1 (wp_opening_full L hnotes hnone o)
    exact ⟨s', hrun, huntouched, hsent⟩
  · exact wp_of_ok wp_setRemote hrun f rfl

/-- A session in which these links are in use, with a module that gives these answers. -/
def inUse (links : List Nat) (answers : List String) : Session Bench where
  wifi :=
    { driver := { engine := { device := { replies := answers.map fun answer => [(0, utf8 answer)] } } }
      links := ⟨.ofFn fun i => { inUse := decide (i.val ∈ links) }⟩ }

/-- A socket listens on the greatest link that is left, and nothing is opened when there is none. -/
theorem opening_on_greatest :
    (∃ s', perform (Opening.listen 0 5000).action (inUse [1, 3] ["\r\nOK\r\n"]) = .ok .ok s' ∧
      (inUse [1, 3] ["\r\nOK\r\n"]).Opened Bench.ledger (.listen 0 5000) s' 2) ∧
    ∃ s', perform (Opening.connect 0 "h" 80 .ssl).action (inUse [0, 1, 2, 3] []) =
        .ok (.fault .noFreeLink) s' ∧
      (inUse [0, 1, 2, 3] []).Untouched s' ∧ Bench.ledger.Sent (inUse [0, 1, 2, 3] []) s' [] := by
  constructor
  · have hvalue : shown? (perform (Opening.listen 0 5000).action) (fun _ s => (s.udps 0).link)
        (inUse [1, 3] ["\r\nOK\r\n"]) = some (some 2) := by
      decide +kernel
    obtain ⟨r, s', hrun, hlink⟩ := shown?_eq_some.1 hvalue
    -- the socket has a link afterwards, so the operation has not failed
    rcases (opening_atomic Bench.ledger _).1 _ _ _ hrun with ⟨f, -, huntouched⟩ | ⟨rfl, link, hopened⟩
    · rw [huntouched.handles] at hlink
      cases hlink
    · rw [hopened.handles] at hlink
      obtain rfl : link = 2 := Option.some.inj hlink
      exact ⟨s', hrun, hopened⟩
  · have hfull := LinkTable.free?_eq_none_iff.1
      (show (inUse [0, 1, 2, 3] []).wifi.links.free? = none by decide +kernel)
    exact (opening_atomic Bench.ledger _).2.1 Bench.notes hfull _

/-! ### The server -/

/-- A start that fails has claimed its link before. -/
theorem wp_start :
    wp True (perform (.server .start)) (fun r s' => ∀ f, r = .fault f →
      s' = { s with wifi := s'.wifi, server := { s.server with started := false } } ∧
        s.wifi.links.claim serverLink = .ok s'.wifi.links) s := by
  show wp True (do
    let s ← get
    let r ← onWifi (do
      let r ← s.server.start
      return (Reply.ofOutcome r.1, r.2))
    modify fun s => { s with server := r.2 }
    return r.1) _ s
  unfold onWifi
  rw [wp_bind, wp_get, wp_bind, wp_focus, wp_bind]
  -- the claim comes before the module is asked, so it was made whatever the answer is
  refine wp_mono Server.wp_start ?_
  rintro ⟨r, v⟩ w ⟨hclaim, ⟨hok, -⟩ | ⟨f, -, hv⟩⟩
  · obtain rfl : r = .ok () := hok
    intro f hf
    cases hf
  · obtain rfl : v = { s.server with started := false } := hv
    exact fun _ _ => ⟨rfl, hclaim⟩

/-- **What a start that fails leaves behind.** The server is not started, and its link is in use, with the
port that it had; all else is as before. So the table is as before exactly if the link was in use. -/
theorem failed_start {s s' : Session σ} {f : Fault} (h : perform (.server .start) s = .ok (.fault f) s') :
    s' = { s with wifi := s'.wifi, server := { s.server with started := false } } ∧
    (∀ link, s'.wifi.links.slot? link =
      if link = serverLink then (s.wifi.links.slot? link).map fun slot => { slot with inUse := true }
      else s.wifi.links.slot? link) ∧
    (s'.wifi.links = s.wifi.links ↔ s.wifi.links.isClaimed serverLink = true) := by
  obtain ⟨hsession, hclaim⟩ := wp_of_ok wp_start h f rfl
  refine ⟨hsession, fun link => ?_, LinkTable.eq_of_claim_iff hclaim⟩
  rw [LinkTable.slot?_update? (LinkTable.update?_of_claim hclaim)]
  by_cases heq : link = serverLink
  · rw [if_pos heq, if_pos heq, heq]
  · rw [if_neg heq, if_neg heq]

/-- The fault that an operation has failed with. -/
def faultOf : Reply → Option Fault
  | .fault f => some f
  | _ => none

/-- A server whose start is refused by the module, on the network of a session. -/
theorem exists_refused {s : Session Bench} {b : Bool}
    (h : shown? (perform (.server .start)) (fun r s => (faultOf r, s.wifi.links.isClaimed serverLink)) s =
      some (some (.rejected .error), b)) :
    ∃ s', perform (.server .start) s = .ok (.fault (.rejected .error)) s' ∧
      s'.wifi.links.isClaimed serverLink = b := by
  obtain ⟨r, s', hrun, hshown⟩ := shown?_eq_some.1 h
  obtain ⟨hfault, hb⟩ := Prod.mk.inj hshown
  cases r <;> cases hfault
  exact ⟨s', hrun, hb⟩

theorem failed_start_inUse :
    ∃ s', perform (.server .start) (inUse [1] ["\r\nERROR\r\n"]) = .ok (.fault (.rejected .error)) s' ∧
      s'.wifi.links = (inUse [1] ["\r\nERROR\r\n"]).wifi.links := by
  obtain ⟨s', hrun, -⟩ :=
    exists_refused (s := inUse [1] ["\r\nERROR\r\n"]) (b := true) (by decide +kernel)
  exact ⟨s', hrun, (failed_start hrun).2.2.2 (by decide +kernel)⟩

/-- **A start that fails leaves its link in use.** -/
theorem failed_start_takes_link :
    ∃ s', perform (.server .start) (inUse [] ["\r\nERROR\r\n"]) = .ok (.fault (.rejected .error)) s' ∧
      s'.wifi.links ≠ (inUse [] ["\r\nERROR\r\n"]).wifi.links := by
  obtain ⟨s', hrun, hclaimed⟩ :=
    exists_refused (s := inUse [] ["\r\nERROR\r\n"]) (b := true) (by decide +kernel)
  refine ⟨s', hrun, fun heq => ?_⟩
  rw [heq] at hclaimed
  exact absurd hclaimed (by decide +kernel)

end Session

end EspWifi
