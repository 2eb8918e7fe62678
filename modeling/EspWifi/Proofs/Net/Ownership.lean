import EspWifi.Proofs.Net.Slots
import EspWifi.Session.Bench

/-!
# Who holds a link

A network is used through handles: clients, datagram sockets and servers, of which there may be any
number. A client or a socket holds the link it is bound to, a server that was started holds the link of
the server. What an operation on one handle changes is that handle and the links in use.

* `World`, `World.Act`, `World.trace`: **a network with its handles, and runs of operations on them**.
* `World.perform_ofSession`: **what a session does with a handle, its world does**.
* `Holder`, `World.holding`: which handle holds which link.
* `ClientAction.Effect`, `UdpAction.Effect`, `ServerAction.Effect`, `World.Step`: all that an operation
  can do to its handle and to the links in use.
* `World.good_trace_iff`: a property that operations keep but for some slips holds all along a run
  exactly if the run has no slips.
-/

namespace EspWifi

open Run

variable {σ : Type} [Device σ]

/-! ### Effects -/

/-- Operations of a client that neither bind nor replace its handle. -/
def ClientAction.IsUse : ClientAction → Prop
  | .new | .copy _ | .connect .. | .accept => False
  | _ => True

/-- **All that an operation of a client can do** to its handle and to the table `t`. -/
inductive ClientAction.Effect (clients : Nat → Client) (c : Client) (t : LinkTable) :
    ClientAction → Reply → Client → LinkTable → Prop
  | opened {host : String} {port : UInt16} {transport : Transport} {link : UInt8} {t' : LinkTable}
      (free : t.isClaimed link = false) (claims : t.Claims link t') :
      Effect clients c t (.connect host port transport) .ok ⟨some link⟩ t'
  | refused {host : String} {port : UInt16} {transport : Transport} (f : Fault) :
      Effect clients c t (.connect host port transport) (.fault f) c t
  | renewed : Effect clients c t .new .done {} t
  | copied (source : Nat) : Effect clients c t (.copy source) .done (clients source) t
  | accepted {link : UInt8} {t' : LinkTable} (claims : t.Claims link t') :
      Effect clients c t .accept (.flag true) ⟨some link⟩ t'
  | passed : Effect clients c t .accept (.flag false) c t
  | used {a : ClientAction} {r : Reply} {c' : Client} {t' : LinkTable} (use : a.IsUse)
      (leaves : c.Leaves t c' t') : Effect clients c t a r c' t'

theorem ClientAction.wp_perform (clients : Nat → Client) (c : Client) (a : ClientAction)
    {w : Wifi σ} :
    wp True (a.perform clients c) (fun r w' => a.Effect clients c w.links r.1 r.2 w'.links) w := by
  have use {α : Type} {m : Run (Wifi σ) (α × Client)} (f : α → Reply) (ha : a.IsUse)
      (h : wp True m (fun r w' => c.Leaves w.links r.2 w'.links) w) :
      wp True (do let r ← m; return (f r.1, r.2))
        (fun r w' => a.Effect clients c w.links r.1 r.2 w'.links) w := by
    rw [wp_bind]
    exact wp_mono h fun _ _ h => .used ha h
  cases a with
  | new => exact .renewed
  | copy source => exact .copied source
  | connect host port transport =>
    show wp True (do return rebind c (← (Client.connect host port transport).run)) _ w
    rw [wp_bind, Attempt.wp_run]
    refine Attempt.wp_mono Client.wp_connect ?_ ?_
    · rintro c' w' ⟨link, hfree, hclaim, rfl⟩
      exact .opened (LinkTable.isClaimed_of_free? hfree).1 fun _ => LinkTable.isClaimed_claim hclaim
    · rintro f w' h
      show ClientAction.Effect _ _ _ _ (.fault f) c w'.links
      rw [h]
      exact .refused f
  | send data => exact use _ trivial Client.wp_send_leaves
  | sendText text crlf => exact use _ trivial Client.wp_sendText_leaves
  | available =>
    show wp True (do return (Reply.number (← c.available).toNat, c)) _ w
    rw [wp_bind]
    exact Client.wp_available_any fun _ _ => .used trivial .kept
  | read => exact use _ trivial Client.wp_getByte_leaves
  | peek => exact use _ trivial Client.wp_getByte_leaves
  | readAll => exact use _ trivial Client.wp_readAll_leaves
  | readUpTo n =>
    show wp True (do return (Reply.ofExcept .buffer (← (c.readUpTo n).run), c)) _ w
    rw [wp_bind, Attempt.wp_run]
    have kept {r : Reply} {w' : Wifi σ} (h : w'.links = w.links) :
        ClientAction.Effect clients c w.links (.readUpTo n) r c w'.links := by
      rw [h]
      exact .used trivial .kept
    exact Attempt.wp_mono Client.wp_readUpTo_keeps (fun _ _ => kept) fun _ _ => kept
  | flush maxWait => exact use _ trivial Client.wp_flush_leaves
  | close =>
    show wp True (do return (Reply.done, ← c.close)) _ w
    rw [wp_bind]
    exact wp_mono Client.wp_close_leaves fun _ _ h => .used trivial h
  | status => exact use _ trivial Client.wp_status_leaves
  | connected => exact use _ trivial Client.wp_connected_leaves
  | remoteIp => exact .used trivial .kept
  | accept =>
    show wp True (Server.accept >>= _) _ w
    rw [wp_bind]
    refine wp_mono Server.wp_accept ?_
    rintro r w' (⟨rfl, h⟩ | ⟨link, rfl, hclaim⟩)
    · show ClientAction.Effect _ _ _ _ (.flag false) c w'.links
      rw [h]
      exact .passed
    · exact .accepted fun _ => LinkTable.isClaimed_claim hclaim

/-- Operations of a datagram socket that leave its handle and the table alone. -/
def UdpAction.IsUse : UdpAction → Prop
  | .listen _ => False
  | _ => True

/-- **All that an operation of a datagram socket can do** to its handle and to the table `t`. -/
inductive UdpAction.Effect (u : Udp) (t : LinkTable) : UdpAction → Reply → Udp → LinkTable → Prop
  | opened {port : UInt16} {link : UInt8} {t' : LinkTable} {u' : Udp}
      (free : t.isClaimed link = false) (claims : t.Claims link t') (held : u'.link = some link) :
      Effect u t (.listen port) .ok u' t'
  | refused {port : UInt16} (f : Fault) : Effect u t (.listen port) (.fault f) u t
  | aimed {host : String} {port : UInt16} {link : UInt8} {t' : LinkTable} {u' : Udp}
      (own : u.link = some link ∨ u.link = none ∧ t.isClaimed link = false)
      (claims : t.Claims link t') (held : u'.link = some link) :
      Effect u t (.setRemote host port) .ok u' t'
  | closed {link : UInt8} {u' : Udp} (held : u.link = some link) (unbound : u'.link = none) :
      Effect u t .close .done u' (t.release link)
  | used {a : UdpAction} {r : Reply} (use : a.IsUse) : Effect u t a r u t

theorem UdpAction.wp_perform (u : Udp) (a : UdpAction) {w : Wifi σ} :
    wp True (a.perform u) (fun r w' => a.Effect u w.links r.1 r.2 w'.links) w := by
  have kept {r : Reply} {w' : Wifi σ} (ha : a.IsUse) (h : w'.links = w.links) :
      a.Effect u w.links r u w'.links := by
    rw [h]
    exact .used ha
  cases a with
  | listen port =>
    show wp True (do return rebind u (← (u.listen port).run)) _ w
    rw [wp_bind, Attempt.wp_run]
    refine Attempt.wp_mono Udp.wp_listen ?_ ?_
    · rintro u' w' ⟨link, t, hfree, hclaim, hport, rfl⟩
      -- the port that is noted afterwards changes nothing about the links in use
      refine .opened (LinkTable.isClaimed_of_free? hfree).1 (fun other => ?_) rfl
      rw [LinkTable.isClaimed_setPort hport]
      exact LinkTable.isClaimed_claim hclaim
    · rintro f w' h
      show UdpAction.Effect u w.links _ (.fault f) u w'.links
      rw [h]
      exact .refused f
  | setRemote host port =>
    show wp True (do return rebind u (← (u.setRemote host port).run)) _ w
    rw [wp_bind, Attempt.wp_run]
    refine Attempt.wp_mono Udp.wp_setRemote ?_ fun f w' h => kept trivial h
    rintro u' w' ⟨link, hlink, hclaim, hheld⟩
    refine .aimed ?_ (fun _ => LinkTable.isClaimed_claim hclaim) hheld
    exact hlink.imp_right fun h => ⟨h.1, (LinkTable.isClaimed_of_free? h.2).1⟩
  | close =>
    show wp True (do return (Reply.done, ← u.close)) _ w
    rw [wp_bind]
    refine wp_mono Udp.wp_close ?_
    rintro u' w' (⟨rfl, h⟩ | ⟨link, hlink, hnone, h⟩)
    · exact kept trivial h
    · show UdpAction.Effect u w.links .close .done u' w'.links
      rw [h]
      exact .closed hlink hnone
  | available =>
    show wp True (do return (Reply.number (← u.available).toNat, u)) _ w
    rw [wp_bind]
    exact Udp.wp_available_any fun _ _ => .used trivial
  | send data =>
    show wp True (do return (Reply.ofExcept .number (← (u.send data).run), u)) _ w
    rw [wp_bind, Attempt.wp_run]
    exact Attempt.wp_mono Udp.wp_send_keeps (fun _ _ => kept trivial) fun _ _ => kept trivial
  | read =>
    show wp True (do return (Reply.byte (← u.read), u)) _ w
    rw [wp_bind]
    exact wp_mono Udp.wp_getByte_keeps fun _ _ => kept trivial
  | peek =>
    show wp True (do return (Reply.byte (← u.peek), u)) _ w
    rw [wp_bind]
    exact wp_mono Udp.wp_getByte_keeps fun _ _ => kept trivial
  | readUpTo n =>
    show wp True (do return (Reply.ofExcept .buffer (← (u.readUpTo n).run), u)) _ w
    rw [wp_bind, Attempt.wp_run]
    exact Attempt.wp_mono Udp.wp_readUpTo_keeps (fun _ _ => kept trivial) fun _ _ => kept trivial
  | flush =>
    show wp True (do u.flush; return (Reply.done, u)) _ w
    rw [wp_bind]
    exact wp_mono Udp.wp_flush_keeps fun _ _ => kept trivial
  | endDatagram => exact .used trivial
  | remoteIp => exact .used trivial
  | remotePort => exact .used trivial

/-- The link that a server holds. -/
def Server.held (v : Server) : Option UInt8 := if v.started then some serverLink else none

theorem Server.eq_of_held {v : Server} {link : UInt8} (h : v.held = some link) : link = serverLink := by
  unfold held at h
  split at h
  · exact (Option.some.inj h).symm
  · cases h

/-- **All that an operation of a server can do** to its handle and to the table of the network `w`. -/
inductive ServerAction.Effect (v : Server) (w : Wifi σ) :
    ServerAction → Reply → Server → LinkTable → Prop
  | renewed (port : UInt16) : Effect v w (.new port) .done { port } w.links
  | started {t' : LinkTable} {v' : Server} (claims : w.links.Claims serverLink t')
      (held : v'.held = some serverLink) : Effect v w .start .ok v' t'
  | failed {f : Fault} {t' : LinkTable} {v' : Server} (claims : w.links.Claims serverLink t')
      (unheld : v'.held = none) : Effect v w .start (.fault f) v' t'
  | sent {data : Bytes} {r : Reply} {t' : LinkTable}
      (claimed : ∀ l, t'.isClaimed l = true ↔
        w.links.isClaimed l = true ∧ l ∉ Server.failed data w) :
      Effect v w (.broadcast data) r v t'
  | told {r : Reply} : Effect v w .status r v w.links

theorem ServerAction.wp_perform (v : Server) (a : ServerAction) {w : Wifi σ} :
    wp True (a.perform v) (fun r w' => a.Effect v w r.1 r.2 w'.links) w := by
  cases a with
  | new port => exact .renewed port
  | status => exact .told
  | start =>
    show wp True (do let r ← v.start; return (Reply.ofOutcome r.1, r.2)) _ w
    rw [wp_bind]
    refine wp_mono Server.wp_start ?_
    rintro ⟨r, v'⟩ w' ⟨hclaim, h⟩
    have claims : w.links.Claims serverLink w'.links := fun _ => LinkTable.isClaimed_claim hclaim
    rcases h with ⟨hok, hstarted⟩ | ⟨f, herror, hstarted⟩
    · obtain rfl : r = .ok () := hok
      obtain rfl : v' = { v with started := true } := hstarted
      exact .started claims (if_pos rfl)
    · obtain rfl : r = .error f := herror
      obtain rfl : v' = { v with started := false } := hstarted
      exact .failed claims (if_neg (by simp))
  | broadcast data =>
    show wp True (do return (Reply.number (← Server.broadcast data), v)) _ w
    rw [wp_bind]
    exact wp_mono (Server.wp_broadcast data) fun _ _ h => .sent h

/-! ### Runs -/

/-- **A network with its handles**, of which there may be any number. -/
structure World (σ : Type) where
  wifi : Wifi σ
  clients : Nat → Client := fun _ => {}
  udps : Nat → Udp := fun _ => {}
  servers : Nat → Server := fun _ => { port := 23 }

namespace World

/-- An operation on a handle, or anything that happens to the driver and its device between two of
them. -/
inductive Act (σ : Type) where
  | client (i : Nat) (a : ClientAction)
  | udp (i : Nat) (a : UdpAction)
  | server (i : Nat) (a : ServerAction)
  | outside (f : Driver σ → Driver σ)

/-- A network program, run on the network of a world. -/
def onWifi {α : Type} (m : Run (Wifi σ) α) : Run (World σ) α :=
  Run.focus (·.wifi) (fun w s => { s with wifi := w }) m

/-- **Carry out an operation.** -/
def perform : Act σ → Run (World σ) Reply
  | .client i a => do
    let s ← get
    let (reply, client) ← onWifi (a.perform s.clients (s.clients i))
    modify fun s => { s with clients := replaceAt s.clients i client }
    return reply
  | .udp i a => do
    let (reply, udp) ← onWifi (a.perform ((← get).udps i))
    modify fun s => { s with udps := replaceAt s.udps i udp }
    return reply
  | .server i a => do
    let (reply, server) ← onWifi (a.perform ((← get).servers i))
    modify fun s => { s with servers := replaceAt s.servers i server }
    return reply
  | .outside f => do
    modify fun s => { s with wifi := { s.wifi with driver := f s.wifi.driver } }
    return .done

/-- An operation in a run, with the states around it. -/
structure Entry (σ : Type) where
  before : World σ
  act : Act σ
  reply : Reply
  after : World σ

/-- **Carry out operations in order, and keep what they did.** -/
def trace : List (Act σ) → Run (World σ) (List (Entry σ))
  | [] => return []
  | act :: acts => do
    let before ← get
    let reply ← perform act
    let after ← get
    return { before, act, reply, after } :: (← trace acts)

/-- A world nobody has used yet. -/
structure Fresh (s : World σ) : Prop where
  links : s.wifi.links = .fresh
  clients : ∀ i, (s.clients i).link = none
  udps : ∀ i, (s.udps i).link = none
  servers : ∀ i, (s.servers i).started = false

/-! ### Sessions -/

/-- A session is a world in which one server is used. -/
def ofSession (s : Session σ) : World σ where
  wifi := s.wifi
  clients := s.clients
  udps := s.udps
  servers := replaceAt (fun _ => { port := 23 }) 0 s.server

/-- The operations of a session that are carried out on a handle. -/
def Act.ofAction : Action → Option (Act σ)
  | .client i a => some (.client i a)
  | .server a => some (.server 0 a)
  | .udp i a => some (.udp i a)
  | _ => none

omit [Device σ] in
/-- Both run a network program and store a handle, so it is enough that they store it alike. -/
theorem onWifi_ofSession {α : Type} (m : Run (Wifi σ) (Reply × α))
    (store : α → Session σ → Session σ) (store' : α → World σ → World σ)
    (hstore : ∀ a s, store' a (ofSession s) = ofSession (store a s)) {s s' : Session σ} {r : Reply}
    (h : (do let r ← Session.onWifi m; modify (store r.2); return r.1) s = .ok r s') :
    (do let r ← onWifi m; modify (store' r.2); return r.1) (ofSession s) =
      .ok r (ofSession s') := by
  have hwifi : (ofSession s).wifi = s.wifi := rfl
  simp only [bind, EStateM.bind, Session.onWifi, onWifi, focus, hwifi] at h ⊢
  cases hm : m s.wifi with
  | ok p w' =>
    rw [hm] at h
    cases h
    exact congrArg (EStateM.Result.ok p.1) (hstore p.2 { s with wifi := w' })
  | error halt w' =>
    rw [hm] at h
    cases h

/-- **What a session does with a handle, its world does.** -/
theorem perform_ofSession {a : Action} {act : Act σ} (hact : Act.ofAction a = some act)
    {s s' : Session σ} {r : Reply} (h : Session.perform a s = .ok r s') :
    perform act (ofSession s) = .ok r (ofSession s') := by
  cases a with
  | client i a =>
    cases hact
    exact onWifi_ofSession (a.perform s.clients (s.clients i))
      (fun c s => { s with clients := replaceAt s.clients i c })
      (fun c s => { s with clients := replaceAt s.clients i c }) (fun _ _ => rfl) h
  | udp i a =>
    cases hact
    exact onWifi_ofSession (a.perform (s.udps i))
      (fun u s => { s with udps := replaceAt s.udps i u })
      (fun u s => { s with udps := replaceAt s.udps i u }) (fun _ _ => rfl) h
  | server a =>
    cases hact
    -- a session has one server, so the one before is forgotten
    have hstore (v : Server) (s : Session σ) :
        ({ ofSession s with servers := replaceAt (ofSession s).servers 0 v } : World σ) =
          ofSession { s with server := v } := by
      refine congrArg (World.mk s.wifi s.clients s.udps) (funext fun i => ?_)
      show (if i = 0 then v else if i = 0 then s.server else _) = if i = 0 then v else _
      split <;> rfl
    exact onWifi_ofSession (a.perform s.server) (fun v s => { s with server := v })
      (fun v s => { s with servers := replaceAt s.servers 0 v }) hstore h
  | _ => cases hact

end World

/-- What can hold a link. -/
inductive Holder where
  | client (i : Nat)
  | udp (i : Nat)
  | server (i : Nat)
  deriving DecidableEq

namespace World

variable {s s' : World σ}

/-- **The link that a handle holds.** -/
def holding (s : World σ) : Holder → Option UInt8
  | .client i => (s.clients i).link
  | .udp i => (s.udps i).link
  | .server i => (s.servers i).held

omit [Device σ] in
/-- Nobody holds a link in a fresh world. -/
theorem Fresh.holding (hs : s.Fresh) (h : Holder) : s.holding h = none := by
  cases h with
  | client i => exact hs.clients i
  | udp i => exact hs.udps i
  | server i => exact if_neg (by simp [hs.servers i])

/-- A fresh world with a module that answers with `replies`. -/
def answering (replies : List String) : World Bench where
  wifi := { driver := { engine := { device :=
    { replies := replies.map fun reply => [(0, utf8 reply)] } } } }

theorem fresh_answering (replies : List String) : (answering replies).Fresh where
  links := rfl
  clients _ := rfl
  udps _ := rfl
  servers _ := rfl

/-- Only the handle `h` may have changed, which now holds `held`. -/
structure Turn (s s' : World σ) (h : Holder) (held : Option UInt8) : Prop where
  self : s'.holding h = held
  others : ∀ h', h' ≠ h → s'.holding h' = s.holding h'

/-- **All that an operation can do to what is held and to the links in use.** -/
inductive Step (s : World σ) : Act σ → Reply → World σ → Prop
  | client {i : Nat} {a : ClientAction} {r : Reply} {c : Client} {s' : World σ}
      (effect : a.Effect s.clients (s.clients i) s.wifi.links r c s'.wifi.links)
      (turn : s.Turn s' (.client i) c.link) : Step s (.client i a) r s'
  | udp {i : Nat} {a : UdpAction} {r : Reply} {u : Udp} {s' : World σ}
      (effect : a.Effect (s.udps i) s.wifi.links r u s'.wifi.links)
      (turn : s.Turn s' (.udp i) u.link) : Step s (.udp i a) r s'
  | server {i : Nat} {a : ServerAction} {r : Reply} {v : Server} {s' : World σ}
      (effect : a.Effect (s.servers i) s.wifi r v s'.wifi.links)
      (turn : s.Turn s' (.server i) v.held) : Step s (.server i a) r s'
  | outside {f : Driver σ → Driver σ} {r : Reply} {s' : World σ}
      (links : s'.wifi.links = s.wifi.links) (same : ∀ h, s'.holding h = s.holding h) :
      Step s (.outside f) r s'

theorem replaceAt_same {α : Type} (f : Nat → α) (i : Nat) (a : α) : replaceAt f i a i = a :=
  if_pos rfl

theorem replaceAt_of_ne {α : Type} (f : Nat → α) {i j : Nat} (a : α) (h : j ≠ i) :
    replaceAt f i a j = f j := if_neg h

theorem wp_perform (act : Act σ) : wp True (perform act) (s.Step act) s := by
  cases act with
  | client i a =>
    show wp True (do
      let s ← get
      let r ← onWifi (a.perform s.clients (s.clients i))
      modify fun s => { s with clients := replaceAt s.clients i r.2 }
      return r.1) _ s
    rw [wp_bind, wp_get, wp_bind]
    unfold onWifi
    rw [wp_focus]
    refine wp_mono (a.wp_perform s.clients (s.clients i)) fun r w' h => ?_
    refine .client h ⟨congrArg Client.link (replaceAt_same s.clients i r.2), ?_⟩
    rintro (j | j | j) hj
    · exact congrArg Client.link (replaceAt_of_ne s.clients r.2 fun h => hj (h ▸ rfl))
    · rfl
    · rfl
  | udp i a =>
    show wp True (do
      let s ← get
      let r ← onWifi (a.perform (s.udps i))
      modify fun s => { s with udps := replaceAt s.udps i r.2 }
      return r.1) _ s
    rw [wp_bind, wp_get, wp_bind]
    unfold onWifi
    rw [wp_focus]
    refine wp_mono (a.wp_perform (s.udps i)) fun r w' h => ?_
    refine .udp h ⟨congrArg Udp.link (replaceAt_same s.udps i r.2), ?_⟩
    rintro (j | j | j) hj
    · rfl
    · exact congrArg Udp.link (replaceAt_of_ne s.udps r.2 fun h => hj (h ▸ rfl))
    · rfl
  | server i a =>
    show wp True (do
      let s ← get
      let r ← onWifi (a.perform (s.servers i))
      modify fun s => { s with servers := replaceAt s.servers i r.2 }
      return r.1) _ s
    rw [wp_bind, wp_get, wp_bind]
    unfold onWifi
    rw [wp_focus]
    refine wp_mono (a.wp_perform (s.servers i)) fun r w' h => ?_
    refine .server h ⟨congrArg Server.held (replaceAt_same s.servers i r.2), ?_⟩
    rintro (j | j | j) hj
    · rfl
    · rfl
    · exact congrArg Server.held (replaceAt_of_ne s.servers r.2 fun h => hj (h ▸ rfl))
  | outside f => exact .outside rfl fun _ => rfl

/-- The first operation of a run, and the rest of it. -/
theorem trace_cons {act : Act σ} {acts : List (Act σ)} {es : List (Entry σ)}
    (h : trace (act :: acts) s = .ok es s') :
    ∃ r s₁ es', s.Step act r s₁ ∧ trace acts s₁ = .ok es' s' ∧
      es = { before := s, act, reply := r, after := s₁ } :: es' := by
  have hrun : wp True (trace (act :: acts)) (fun es s' => ∃ r s₁ es', s.Step act r s₁ ∧
      trace acts s₁ = .ok es' s' ∧ es = { before := s, act, reply := r, after := s₁ } :: es') s := by
    rw [trace, wp_bind, wp_get, wp_bind]
    refine wp_mono (wp_perform act) fun r s₁ hstep => ?_
    rw [wp_bind, wp_get, wp_bind]
    -- nothing is asked of the rest but that it is the run it is
    have hany : wp True (trace acts) (fun _ _ => True) s₁ := wp_any fun _ _ => trivial
    refine wp_mono (wp_and_result hany) ?_
    rintro es' s' ⟨-, hrest⟩
    exact ⟨r, s₁, es', hstep, hrest, rfl⟩
  exact wp_of_ok hrun h

/-- A run carries out the operations it is given. -/
theorem act_mem_of_mem_trace {acts : List (Act σ)} {es : List (Entry σ)} {e : Entry σ}
    (h : trace acts s = .ok es s') (he : e ∈ es) : e.act ∈ acts := by
  induction acts generalizing s es with
  | nil =>
    cases h
    cases he
  | cons act acts ih =>
    obtain ⟨r, s₁, es, -, hrest, rfl⟩ := trace_cons h
    rcases List.mem_cons.1 he with rfl | he
    · exact List.mem_cons_self
    · exact List.mem_cons_of_mem _ (ih hrest he)

/-- **A property that operations keep but for some slips holds all along a run exactly if the run has no
slips.** An invariant may carry it. -/
theorem good_trace_iff {inv good : World σ → Prop} {permitted slip : Entry σ → Prop}
    (keep : ∀ e : Entry σ, e.before.Step e.act e.reply e.after → inv e.before → permitted e →
      ¬ slip e → inv e.after)
    (spoil : ∀ e : Entry σ, e.before.Step e.act e.reply e.after → inv e.before → permitted e →
      slip e → ¬ good e.after)
    (carry : ∀ s, inv s → good s) {acts : List (Act σ)} {es : List (Entry σ)} (hs : inv s)
    (h : trace acts s = .ok es s') (hpermitted : ∀ e ∈ es, permitted e) :
    (∀ e ∈ es, good e.after) ↔ ∀ e ∈ es, ¬ slip e := by
  induction acts generalizing s es with
  | nil =>
    cases h
    simp
  | cons act acts ih =>
    obtain ⟨r, s₁, es, hstep, hrest, rfl⟩ := trace_cons h
    have hfirst := hpermitted _ List.mem_cons_self
    have hothers := fun e he => hpermitted e (List.mem_cons_of_mem _ he)
    rw [List.forall_mem_cons, List.forall_mem_cons]
    -- up to the first slip the invariant holds, and right after it the property does not
    by_cases hslip : slip { before := s, act, reply := r, after := s₁ }
    · constructor
      · exact fun hgood => absurd hgood.1 (spoil _ hstep hs hfirst hslip)
      · exact fun hnone => absurd hslip hnone.1
    · have hinv := keep _ hstep hs hfirst hslip
      rw [ih hinv hrest hothers]
      constructor
      · exact fun hall => ⟨hslip, hall.2⟩
      · exact fun hall => ⟨carry _ hinv, hall.2⟩

end World

end EspWifi
