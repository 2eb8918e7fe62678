import EspWifi.Proofs.Net.Ownership

/-!
# Links that two handles hold

What is sent over a link reaches whoever holds it, so two handles on one link read and write each
other's bytes, and a handle whose link is free loses it to the next that asks for one.

* `World.Exclusive`: **a handle that is bound has a link in use, and has it to itself**.
* `World.Act.SharesLink`: operations that are meant to bind a second handle to a link.
* `World.Entry.Intrudes`: operations that take a link from the client or socket that holds it.
* `World.exclusive_iff`: **no link is ever taken from its holder exactly if no operation intrudes.**
-/

namespace EspWifi

/-- Servers all listen on the same link. -/
def Holder.IsServer : Holder → Prop
  | .server _ => True
  | _ => False

namespace World

open Run

variable {σ : Type} {s s' : World σ}

/-- No two handles hold the same link, unless both are servers. -/
def Sole (s : World σ) : Prop :=
  ∀ h h' link, s.holding h = some link → s.holding h' = some link →
    h = h' ∨ h.IsServer ∧ h'.IsServer

/-- **Clients and sockets hold links in use, and no two handles the same.** -/
structure Exclusive (s : World σ) : Prop where
  inUse : ∀ h link, ¬ h.IsServer → s.holding h = some link → s.wifi.links.isClaimed link = true
  sole : s.Sole

/-- So far nothing was taken from any handle: servers that were started have their link in use too. -/
structure Owned (s : World σ) : Prop where
  inUse : ∀ h link, s.holding h = some link → s.wifi.links.isClaimed link = true
  sole : s.Sole

theorem Owned.exclusive (hs : s.Owned) : s.Exclusive where
  inUse h link _ := hs.inUse h link
  sole := hs.sole

theorem Fresh.owned (hs : s.Fresh) : s.Owned where
  inUse h link hh := by cases (hs.holding h).symm.trans hh
  sole h _ link hh := by cases (hs.holding h).symm.trans hh

/-- The operation is meant to bind a handle to a link that another one may hold. -/
def Act.SharesLink : Act σ → Prop
  | .client _ (.copy _) | .client _ .accept => True
  | _ => False

/-! ### Steps -/

variable {h : Holder} {held : Option UInt8} {link : UInt8}

namespace Owned

/-- The others keep what they hold, and the handle that changed holds a link in use of its own. -/
theorem turn (hs : s.Owned) (turn : s.Turn s' h held)
    (hself : ∀ link, held = some link → s'.wifi.links.isClaimed link = true ∧
      ∀ h', h' ≠ h → s.holding h' = some link → h.IsServer ∧ h'.IsServer)
    (hothers : ∀ h' link, h' ≠ h → s.holding h' = some link →
      s'.wifi.links.isClaimed link = true) : s'.Owned where
  inUse h' link hh' := by
    by_cases heq : h' = h
    · rw [heq, turn.self] at hh'
      exact (hself link hh').1
    · rw [turn.others h' heq] at hh'
      exact hothers h' link heq hh'
  sole h₁ h₂ link hh₁ hh₂ := by
    -- two holders, each of them the one that changed or one of the others
    by_cases heq₁ : h₁ = h
    · by_cases heq₂ : h₂ = h
      · exact .inl (heq₁.trans heq₂.symm)
      · rw [heq₁, turn.self] at hh₁
        rw [turn.others h₂ heq₂] at hh₂
        exact .inr (heq₁ ▸ (hself link hh₁).2 h₂ heq₂ hh₂)
    · rw [turn.others h₁ heq₁] at hh₁
      by_cases heq₂ : h₂ = h
      · rw [heq₂, turn.self] at hh₂
        exact .inr (heq₂ ▸ ((hself link hh₂).2 h₁ heq₁ hh₁).symm)
      · rw [turn.others h₂ heq₂] at hh₂
        exact hs.sole h₁ h₂ link hh₁ hh₂

/-- The handle keeps its link, or lets go of it, and all that were held stay in use. -/
theorem keep (hs : s.Owned) (turn : s.Turn s' h held) (hheld : held = none ∨ held = s.holding h)
    (hclaims : ∀ h' link, s.holding h' = some link → s'.wifi.links.isClaimed link = true) :
    s'.Owned := by
  refine hs.turn turn (fun link hlink => ?_) fun h' link _ => hclaims h' link
  rcases hheld with hnone | hheld
  · cases hnone.symm.trans hlink
  · have hh : s.holding h = some link := hheld.symm.trans hlink
    refine ⟨hclaims h link hh, fun h' hne hh' => ?_⟩
    exact ((hs.sole h h' link hh hh').resolve_left fun heq => hne heq.symm)

/-- The table stays as it is, and the handle keeps its link or lets go of it. -/
theorem keep_links (hs : s.Owned) (turn : s.Turn s' h held)
    (hheld : held = none ∨ held = s.holding h) (hlinks : s'.wifi.links = s.wifi.links) :
    s'.Owned :=
  hs.keep turn hheld fun h' link hh' => hlinks ▸ hs.inUse h' link hh'

/-- The handle takes a link that no one else holds, or that only servers hold if it is one itself. -/
theorem take (hs : s.Owned) (turn : s.Turn s' h (some link))
    (claims : s.wifi.links.Claims link s'.wifi.links)
    (hfree : ∀ h', h' ≠ h → s.holding h' = some link → h.IsServer ∧ h'.IsServer) : s'.Owned := by
  refine hs.turn turn (fun new hnew => ?_) fun h' other _ hh' => ?_
  · cases hnew
    exact ⟨(claims link).2 (.inl rfl), hfree⟩
  · exact (claims other).2 (.inr (hs.inUse h' other hh'))

/-- Nobody holds a link that is not in use. -/
theorem holding_ne (hs : s.Owned) (hfree : s.wifi.links.isClaimed link = false) (h : Holder) :
    s.holding h ≠ some link := by
  intro hh
  rw [hs.inUse h link hh] at hfree
  cases hfree

/-- The handle gives its link back, which it had to itself. -/
theorem close (hs : s.Owned) (turn : s.Turn s' h none) (hh : s.holding h = some link)
    (hserver : ¬ h.IsServer) (hlinks : s'.wifi.links = s.wifi.links.release link) : s'.Owned := by
  refine hs.turn turn nofun fun h' other hne hh' => ?_
  rw [hlinks, LinkTable.isClaimed_release]
  -- what another one holds is not the link that is given back
  refine ⟨?_, hs.inUse h' other hh'⟩
  rintro rfl
  rcases hs.sole h h' other hh hh' with heq | ⟨his, -⟩
  · exact hne heq.symm
  · exact hserver his

theorem client {i : Nat} {a : ClientAction} {r : Reply} {c : Client} (hs : s.Owned)
    (effect : a.Effect s.clients (s.clients i) s.wifi.links r c s'.wifi.links)
    (turn : s.Turn s' (.client i) c.link) (hshares : ¬ Act.SharesLink (.client i a : Act σ)) :
    s'.Owned := by
  generalize ht : s'.wifi.links = t' at effect
  cases effect with
  | opened free claims =>
    exact hs.take turn (ht ▸ claims) fun h' _ hh' => absurd hh' (hs.holding_ne free h')
  | refused f => exact hs.keep_links turn (.inr rfl) ht
  | renewed => exact hs.keep_links turn (.inl rfl) ht
  | copied source => exact absurd trivial hshares
  | accepted claims => exact absurd trivial hshares
  | passed => exact absurd trivial hshares
  | used use leaves =>
    cases leaves with
    | kept => exact hs.keep_links turn (.inr rfl) ht
    | closed held => exact hs.close turn held id ht

theorem udp {i : Nat} {a : UdpAction} {r : Reply} {u : Udp} (hs : s.Owned)
    (effect : a.Effect (s.udps i) s.wifi.links r u s'.wifi.links)
    (turn : s.Turn s' (.udp i) u.link) : s'.Owned := by
  generalize ht : s'.wifi.links = t' at effect
  cases effect with
  | opened free claims held =>
    rw [held] at turn
    exact hs.take turn (ht ▸ claims) fun h' _ hh' => absurd hh' (hs.holding_ne free h')
  | refused f => exact hs.keep_links turn (.inr rfl) ht
  | @aimed _ _ link _ _ own claims held =>
    rw [held] at turn
    refine hs.take turn (ht ▸ claims) fun h' hne hh' => ?_
    rcases own with hown | ⟨-, free⟩
    · exact (hs.sole (.udp i) h' link hown hh').resolve_left fun heq => hne heq.symm
    · exact absurd hh' (hs.holding_ne free h')
  | closed held unbound =>
    rw [unbound] at turn
    exact hs.close turn held id ht
  | used use => exact hs.keep_links turn (.inr rfl) ht

end Owned

variable [Device σ]

/-- **The operation takes a link from the client or socket that holds it**: a server starts on it, or a
broadcast fails on it and gives it back. -/
def Entry.Intrudes (e : Entry σ) : Prop :=
  match e.act, e.reply with
  | .server _ .start, .ok => ∃ h, ¬ h.IsServer ∧ e.before.holding h = some serverLink
  | .server _ (.broadcast data), _ => ∃ h link, ¬ h.IsServer ∧ e.before.holding h = some link ∧
      link ∈ Server.failed data e.before.wifi
  | _, _ => False

theorem Owned.server {i : Nat} {a : ServerAction} {r : Reply} {v : Server} (hs : s.Owned)
    (effect : a.Effect (s.servers i) s.wifi r v s'.wifi.links)
    (turn : s.Turn s' (.server i) v.held) (hnot : ¬ Entry.Intrudes ⟨s, .server i a, r, s'⟩) :
    s'.Owned := by
  generalize ht : s'.wifi.links = t' at effect
  cases effect with
  | renewed port => exact hs.keep_links turn (.inl rfl) ht
  | started claims held =>
    rw [held] at turn
    refine hs.take turn (ht ▸ claims) fun h' _ hh' => ⟨trivial, ?_⟩
    exact Classical.byContradiction fun hserver => hnot ⟨h', hserver, hh'⟩
  | failed claims unheld =>
    refine hs.keep turn (.inl unheld) fun h' link hh' => ?_
    rw [ht]
    exact (claims link).2 (.inr (hs.inUse h' link hh'))
  | @sent data _ _ claimed =>
    refine hs.keep turn (.inr rfl) fun h' link hh' => ?_
    rw [ht]
    refine (claimed link).2 ⟨hs.inUse h' link hh', fun hfailed => ?_⟩
    cases h' with
    | client j => exact hnot ⟨.client j, link, id, hh', hfailed⟩
    | udp j => exact hnot ⟨.udp j, link, id, hh', hfailed⟩
    | server j =>
      -- the server's link is the one that is not sent to
      rw [Server.eq_of_held hh'] at hfailed
      exact Server.serverLink_not_mem_failed data s.wifi hfailed
  | told => exact hs.keep_links turn (.inr rfl) ht

/-- **An operation that neither shares a link nor intrudes takes none from its holder.** -/
theorem Step.owned {act : Act σ} {r : Reply} (step : s.Step act r s') (hs : s.Owned)
    (hshares : ¬ act.SharesLink) (hnot : ¬ Entry.Intrudes ⟨s, act, r, s'⟩) : s'.Owned := by
  cases step with
  | client effect turn => exact hs.client effect turn hshares
  | udp effect turn => exact hs.udp effect turn
  | server effect turn => exact hs.server effect turn hnot
  | outside links same =>
    constructor
    · intro h link hh
      rw [same] at hh
      rw [links]
      exact hs.inUse h link hh
    · intro h h' link hh hh'
      rw [same] at hh hh'
      exact hs.sole h h' link hh hh'

/-- **An operation that intrudes leaves its victim with a link that is free, or that a server holds
too.** -/
theorem Step.not_exclusive {act : Act σ} {r : Reply} (step : s.Step act r s')
    (hintrudes : Entry.Intrudes ⟨s, act, r, s'⟩) : ¬ s'.Exclusive := by
  intro hs'
  cases step with
  | client effect turn => exact hintrudes
  | udp effect turn => exact hintrudes
  | outside links same => exact hintrudes
  | @server i _ _ _ _ effect turn =>
    -- a client or a socket keeps what it holds
    have kept {h : Holder} {link : UInt8} (hserver : ¬ h.IsServer)
        (hh : s.holding h = some link) : s'.holding h = some link := by
      refine (turn.others h ?_).trans hh
      rintro rfl
      exact hserver trivial
    generalize ht : s'.wifi.links = t' at effect
    cases effect with
    | renewed port => exact hintrudes
    | started claims held =>
      obtain ⟨h, hserver, hh⟩ := hintrudes
      rcases hs'.sole h (.server i) serverLink (kept hserver hh) (turn.self.trans held) with
        rfl | ⟨his, -⟩
      · exact hserver trivial
      · exact hserver his
    | failed claims unheld => exact hintrudes
    | sent claimed =>
      obtain ⟨h, link, hserver, hh, hfailed⟩ := hintrudes
      have hclaimed := hs'.inUse h link hserver (kept hserver hh)
      rw [ht, claimed] at hclaimed
      exact hclaimed.2 hfailed
    | told => exact hintrudes

/-! ### Runs -/

/-- **No link is ever taken from its holder exactly if no operation intrudes**, whatever the handles, their
operations and the module do. -/
theorem exclusive_iff {acts : List (Act σ)} {es : List (Entry σ)} (hs : s.Fresh)
    (h : trace acts s = .ok es s') (hshares : ∀ act ∈ acts, ¬ act.SharesLink) :
    (∀ e ∈ es, e.after.Exclusive) ↔ ∀ e ∈ es, ¬ e.Intrudes := by
  refine good_trace_iff (fun e step hs hshares hnot => ?_) ?_ (fun _ hs => hs.exclusive) hs.owned h
    fun e he => hshares e.act (act_mem_of_mem_trace h he)
  · exact step.owned hs hshares hnot
  · exact fun e step _ _ hintrudes => step.not_exclusive hintrudes

/-- A server and a client that connects next to it have their links to themselves. -/
theorem server_beside_client :
    ∃ es s', trace [.server 0 .start, .client 0 (.connect "h" 80 .tcp)]
        (answering ["\r\nOK\r\n", "\r\nOK\r\n"]) = .ok es s' ∧
      ((s'.servers 0).held, (s'.clients 0).link) = (some 1, some 3) ∧
      ∀ e ∈ es, e.after.Exclusive := by
  have hvalue : value? (do
      let _ ← trace [.server 0 .start, .client 0 (.connect "h" 80 .tcp)]
      let s ← get
      return ((s.servers 0).held, (s.clients 0).link))
        (answering ["\r\nOK\r\n", "\r\nOK\r\n"]) = some (some 1, some 3) := by
    decide +kernel
  obtain ⟨es, s', hrun, hlast⟩ := value?_bind_eq_some.1 hvalue
  refine ⟨es, s', hrun, Option.some.inj hlast, (exclusive_iff (fresh_answering _) hrun ?_).2 ?_⟩
  · simp [Act.SharesLink]
  · obtain ⟨r, s₁, es₁, -, hrest, rfl⟩ := trace_cons hrun
    obtain ⟨r', s₂, es₂, -, hnil, rfl⟩ := trace_cons hrest
    cases hnil
    rintro e (_ | ⟨_, _ | ⟨_, ⟨⟩⟩⟩) hintrudes
    · cases r with
      | ok =>
        obtain ⟨h, -, hh⟩ := hintrudes
        cases ((fresh_answering _).holding h).symm.trans hh
      | _ => exact hintrudes
    · exact hintrudes

/-- Three clients connect, then a server starts. -/
def clientsThenServer : List (Act Bench) :=
  [.client 0 (.connect "h" 80 .tcp), .client 1 (.connect "h" 80 .tcp),
    .client 2 (.connect "h" 80 .tcp), .server 0 .start]

/-- **A server takes the link of a client**: the third one to connect holds the server's. -/
theorem server_takes_link_of_client :
    (∀ act ∈ clientsThenServer, ¬ act.SharesLink) ∧
      ∃ es s', trace clientsThenServer (answering (List.replicate 4 "\r\nOK\r\n")) = .ok es s' ∧
        ¬ s'.Exclusive := by
  have hvalue : value? (do
      let _ ← trace clientsThenServer
      let s ← get
      return ((s.clients 2).link, (s.servers 0).held))
        (answering (List.replicate 4 "\r\nOK\r\n")) = some (some 1, some 1) := by
    decide +kernel
  obtain ⟨es, s', hrun, hlast⟩ := value?_bind_eq_some.1 hvalue
  obtain ⟨hclient, hserver⟩ := Prod.mk.inj (Option.some.inj hlast)
  refine ⟨by simp [clientsThenServer, Act.SharesLink], es, s', hrun, fun hs' => ?_⟩
  rcases hs'.sole (.client 2) (.server 0) 1 hclient hserver with heq | ⟨his, -⟩
  · cases heq
  · exact his

end World

end EspWifi
