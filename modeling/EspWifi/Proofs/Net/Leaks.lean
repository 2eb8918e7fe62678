import EspWifi.Proofs.Net.Ownership

/-!
# Links that nobody holds

A link that is in use and that no handle holds is lost: nobody can give it back any more, and with four
links a few of these end all outgoing connections.

* `World.NoLeak`: every link in use is held.
* `World.Entry.KeepsHandles`, `World.Entry.Abandons`: operations that drop no handle, and those among
  them after which a link is lost.
* `World.noLeak_iff`: **no link is ever lost exactly if no operation abandons one.**
-/

namespace EspWifi.World

open Run

variable {σ : Type} {s s' : World σ}

/-- **Every link in use is held.** -/
def NoLeak (s : World σ) : Prop :=
  ∀ link, s.wifi.links.isClaimed link = true → ∃ h, s.holding h = some link

/-- The link is in use, and `h` is the only one to hold it. -/
def HoldsAlone (s : World σ) (h : Holder) (link : UInt8) : Prop :=
  s.wifi.links.isClaimed link = true ∧ s.holding h = some link ∧
    ∀ h', s.holding h' = some link → h' = h

namespace Entry

/-- **No handle is copied or dropped**: a handle that another one takes the place of was not bound. -/
def KeepsHandles (e : Entry σ) : Prop :=
  match e.act, e.reply with
  | .client _ (.copy _), _ => False
  | .client i .new, _ | .client i .accept, .flag true => (e.before.clients i).link = none
  | .server i (.new _), _ => (e.before.servers i).started = false
  | _, _ => True

/-- **The operation abandons a link**: a client that connects or a socket that listens was the only one to
hold its old link, or a server fails to start whose link nobody else holds. -/
def Abandons (e : Entry σ) : Prop :=
  match e.act, e.reply with
  | .client i (.connect ..), .ok => ∃ link, e.before.HoldsAlone (.client i) link
  | .udp i (.listen _), .ok => ∃ link, e.before.HoldsAlone (.udp i) link
  | .server i .start, .fault _ => ∀ h, e.before.holding h = some serverLink → h = .server i
  | _, _ => False

end Entry

/-! ### Steps -/

variable {h : Holder} {held : Option UInt8} {link : UInt8}

/-- A link stays held if its holder keeps it, or if others hold it. -/
theorem NoLeak.turn (hs : s.NoLeak) (turn : s.Turn s' h held)
    (hclaims : ∀ link, s'.wifi.links.isClaimed link = true → held = some link ∨
      (∃ h', h' ≠ h ∧ s.holding h' = some link) ∨
      s.wifi.links.isClaimed link = true ∧ s.holding h ≠ some link) : s'.NoLeak := by
  intro link hlink
  have kept {h' : Holder} (hne : h' ≠ h) (hh : s.holding h' = some link) :
      ∃ h, s'.holding h = some link := ⟨h', (turn.others h' hne).trans hh⟩
  rcases hclaims link hlink with hself | ⟨h', hne, hh⟩ | ⟨hold, hnot⟩
  · exact ⟨h, turn.self.trans hself⟩
  · exact kept hne hh
  · obtain ⟨h', hh⟩ := hs link hold
    refine kept ?_ hh
    rintro rfl
    exact hnot hh

/-- A link in use is lost if its only holder lets go of it. -/
theorem Turn.not_noLeak (turn : s.Turn s' h held) (hlink : s'.wifi.links.isClaimed link = true)
    (hheld : held ≠ some link) (halone : ∀ h', s.holding h' = some link → h' = h) : ¬ s'.NoLeak := by
  intro hs'
  obtain ⟨h', hh'⟩ := hs' link hlink
  -- whoever holds it now held it before, which only `h` did
  by_cases heq : h' = h
  · rw [heq, turn.self] at hh'
    exact hheld hh'
  · rw [turn.others h' heq] at hh'
    exact heq (halone h' hh')

/-- A link that is in use, not lost and not held by `h` alone is held by others. -/
theorem exists_other_of_not_holdsAlone (hlink : s.wifi.links.isClaimed link = true)
    (hh : s.holding h = some link) (hnot : ¬ s.HoldsAlone h link) :
    ∃ h', h' ≠ h ∧ s.holding h' = some link := by
  refine Classical.byContradiction fun hnone => hnot ⟨hlink, hh, fun h' hh' => ?_⟩
  exact Classical.byContradiction fun hne => hnone ⟨h', hne, hh'⟩

/-- What takes a new link leaves no other one behind, unless it held one alone. -/
theorem NoLeak.open (hs : s.NoLeak) (turn : s.Turn s' h (some link))
    (claims : s.wifi.links.Claims link s'.wifi.links)
    (hkept : ∀ old, s.holding h = some old → old = link ∨ ¬ s.HoldsAlone h old) : s'.NoLeak := by
  refine hs.turn turn fun other hother => ?_
  rcases (claims other).1 hother with rfl | hold
  · exact .inl rfl
  -- the old link of `h` is the new one, or someone else holds it too
  by_cases hh : s.holding h = some other
  · rcases hkept other hh with rfl | hnot
    · exact .inl rfl
    · exact .inr (.inl (exists_other_of_not_holdsAlone hold hh hnot))
  · exact .inr (.inr ⟨hold, hh⟩)

/-- What keeps its link loses none if no more links are in use. -/
theorem NoLeak.keep (hs : s.NoLeak) (turn : s.Turn s' h (s.holding h))
    (hclaims : ∀ link, s'.wifi.links.isClaimed link = true → s.wifi.links.isClaimed link = true) :
    s'.NoLeak := by
  refine hs.turn turn fun other hother => ?_
  by_cases hh : s.holding h = some other
  · exact .inl hh
  · exact .inr (.inr ⟨hclaims other hother, hh⟩)

/-- What gives its link back loses none. -/
theorem NoLeak.close (hs : s.NoLeak) (turn : s.Turn s' h none) (hh : s.holding h = some link)
    (hlinks : s'.wifi.links = s.wifi.links.release link) : s'.NoLeak := by
  refine hs.turn turn fun other hother => ?_
  rw [hlinks, LinkTable.isClaimed_release] at hother
  refine .inr (.inr ⟨hother.2, fun hother' => hother.1 ?_⟩)
  exact Option.some.inj (hother'.symm.trans hh)

/-- What takes a free link leaves its old one behind, which it held alone. -/
theorem Turn.not_noLeak_of_open (turn : s.Turn s' h (some link))
    (free : s.wifi.links.isClaimed link = false) (claims : s.wifi.links.Claims link s'.wifi.links)
    (halone : ∃ old, s.HoldsAlone h old) : ¬ s'.NoLeak := by
  obtain ⟨old, hclaimed, -, halone⟩ := halone
  refine turn.not_noLeak ((claims old).2 (.inr hclaimed)) (fun hnew => ?_) halone
  rw [Option.some.inj hnew, hclaimed] at free
  cases free

theorem NoLeak.client {i : Nat} {a : ClientAction} {r : Reply} {c : Client} (hs : s.NoLeak)
    (effect : a.Effect s.clients (s.clients i) s.wifi.links r c s'.wifi.links)
    (turn : s.Turn s' (.client i) c.link)
    (hkeeps : Entry.KeepsHandles ⟨s, .client i a, r, s'⟩)
    (hnot : ¬ Entry.Abandons ⟨s, .client i a, r, s'⟩) : s'.NoLeak := by
  generalize ht : s'.wifi.links = t' at effect
  have same (htable : t' = s.wifi.links) (turn : s.Turn s' (.client i) (s.clients i).link) :
      s'.NoLeak := hs.keep turn fun link hlink => by rwa [ht, htable] at hlink
  have unbound (h : (s.clients i).link = none) (old : UInt8) : s.holding (.client i) ≠ some old := by
    intro hold
    cases h.symm.trans hold
  cases effect with
  | opened free claims =>
    exact hs.open turn (ht ▸ claims) fun old _ => .inr fun halone => hnot ⟨old, halone⟩
  | refused f => exact same rfl turn
  | renewed =>
    refine hs.turn turn fun link hlink => .inr (.inr ⟨?_, unbound hkeeps link⟩)
    rwa [ht] at hlink
  | copied source => exact hkeeps.elim
  | accepted claims =>
    exact hs.open turn (ht ▸ claims) fun old hold => absurd hold (unbound hkeeps old)
  | passed => exact same rfl turn
  | used use leaves =>
    cases leaves with
    | kept => exact same rfl turn
    | closed held => exact hs.close turn held ht

theorem NoLeak.udp {i : Nat} {a : UdpAction} {r : Reply} {u : Udp} (hs : s.NoLeak)
    (effect : a.Effect (s.udps i) s.wifi.links r u s'.wifi.links) (turn : s.Turn s' (.udp i) u.link)
    (hnot : ¬ Entry.Abandons ⟨s, .udp i a, r, s'⟩) : s'.NoLeak := by
  generalize ht : s'.wifi.links = t' at effect
  have same (htable : t' = s.wifi.links) (turn : s.Turn s' (.udp i) (s.udps i).link) :
      s'.NoLeak := hs.keep turn fun link hlink => by rwa [ht, htable] at hlink
  cases effect with
  | opened free claims held =>
    rw [held] at turn
    exact hs.open turn (ht ▸ claims) fun old _ => .inr fun halone => hnot ⟨old, halone⟩
  | refused f => exact same rfl turn
  | aimed own claims held =>
    rw [held] at turn
    refine hs.open turn (ht ▸ claims) fun old hold => .inl ?_
    rcases own with hown | ⟨hnone, -⟩
    · exact Option.some.inj (hold.symm.trans hown)
    · cases hnone.symm.trans hold
  | closed held unbound =>
    rw [unbound] at turn
    exact hs.close turn held ht
  | used use => exact same rfl turn

variable [Device σ]

theorem NoLeak.server {i : Nat} {a : ServerAction} {r : Reply} {v : Server} (hs : s.NoLeak)
    (effect : a.Effect (s.servers i) s.wifi r v s'.wifi.links)
    (turn : s.Turn s' (.server i) v.held)
    (hkeeps : Entry.KeepsHandles ⟨s, .server i a, r, s'⟩)
    (hnot : ¬ Entry.Abandons ⟨s, .server i a, r, s'⟩) : s'.NoLeak := by
  generalize ht : s'.wifi.links = t' at effect
  have own {old : UInt8} (hold : s.holding (.server i) = some old) : old = serverLink :=
    Server.eq_of_held hold
  cases effect with
  | renewed port =>
    refine hs.turn turn fun link hlink => .inr (.inr ⟨?_, fun hold => ?_⟩)
    · rwa [ht] at hlink
    · have hstopped : (s.servers i).started = false := hkeeps
      rw [show s.holding (.server i) = none from if_neg (by simp [hstopped])] at hold
      cases hold
  | started claims held =>
    rw [held] at turn
    exact hs.open turn (ht ▸ claims) fun old hold => .inl (own hold)
  | failed claims unheld =>
    rw [unheld] at turn
    refine hs.turn turn fun link hlink => .inr ?_
    rw [ht] at hlink
    by_cases hserver : link = serverLink
    · -- the failed start has taken the link, but it is not the only one to hold it
      refine .inl (Classical.byContradiction fun hnone => hnot fun h' hh' => ?_)
      exact Classical.byContradiction fun hne => hnone ⟨h', hne, hserver ▸ hh'⟩
    · refine .inr ⟨((claims link).1 hlink).resolve_left hserver, fun hold => ?_⟩
      exact hserver (own hold)
  | sent claimed =>
    refine hs.keep turn fun link hlink => ?_
    rw [ht] at hlink
    exact ((claimed link).1 hlink).1
  | told => exact hs.keep turn fun link hlink => by rwa [ht] at hlink

/-- **An operation that abandons no link loses none.** -/
theorem Step.noLeak {act : Act σ} {r : Reply} (step : s.Step act r s') (hs : s.NoLeak)
    (hkeeps : Entry.KeepsHandles ⟨s, act, r, s'⟩) (hnot : ¬ Entry.Abandons ⟨s, act, r, s'⟩) :
    s'.NoLeak := by
  cases step with
  | client effect turn => exact hs.client effect turn hkeeps hnot
  | udp effect turn => exact hs.udp effect turn hnot
  | server effect turn => exact hs.server effect turn hkeeps hnot
  | outside links same =>
    intro link hlink
    rw [links] at hlink
    obtain ⟨h, hh⟩ := hs link hlink
    exact ⟨h, (same h).trans hh⟩

/-- **An operation that abandons a link loses it.** -/
theorem Step.not_noLeak {act : Act σ} {r : Reply} (step : s.Step act r s')
    (habandons : Entry.Abandons ⟨s, act, r, s'⟩) : ¬ s'.NoLeak := by
  cases step with
  | outside links same => exact habandons.elim
  | @client _ a _ _ _ effect turn =>
    generalize ht : s'.wifi.links = t' at effect
    cases effect with
    | opened free claims => exact turn.not_noLeak_of_open free (ht ▸ claims) habandons
    | refused f => exact habandons.elim
    | renewed => exact habandons.elim
    | copied source => exact habandons.elim
    | accepted claims => exact habandons.elim
    | passed => exact habandons.elim
    | used use leaves => cases a <;> first | exact use.elim | exact habandons.elim
  | @udp _ a _ _ _ effect turn =>
    generalize ht : s'.wifi.links = t' at effect
    cases effect with
    | opened free claims held =>
      rw [held] at turn
      exact turn.not_noLeak_of_open free (ht ▸ claims) habandons
    | refused f => exact habandons.elim
    | aimed own claims held => exact habandons.elim
    | closed held unbound => exact habandons.elim
    | used use => cases a <;> first | exact use.elim | exact habandons.elim
  | server effect turn =>
    generalize ht : s'.wifi.links = t' at effect
    cases effect with
    | renewed port => exact habandons.elim
    | started claims held => exact habandons.elim
    | failed claims unheld =>
      rw [unheld] at turn
      have hclaimed : s'.wifi.links.isClaimed serverLink = true := by
        rw [ht]
        exact (claims serverLink).2 (.inl rfl)
      exact turn.not_noLeak hclaimed nofun habandons
    | sent claimed => exact habandons.elim
    | told => exact habandons.elim

/-! ### Runs -/

omit [Device σ] in
/-- Nothing is lost before the first operation. -/
theorem Fresh.noLeak (hs : s.Fresh) : s.NoLeak := by
  intro link hlink
  rw [hs.links, LinkTable.isClaimed_fresh] at hlink
  cases hlink

/-- **No link is ever lost exactly if no operation abandons one**, whatever the handles, their operations
and the module do. -/
theorem noLeak_iff {acts : List (Act σ)} {es : List (Entry σ)} (hs : s.Fresh)
    (h : trace acts s = .ok es s') (hkeeps : ∀ e ∈ es, e.KeepsHandles) :
    (∀ e ∈ es, e.after.NoLeak) ↔ ∀ e ∈ es, ¬ e.Abandons := by
  refine good_trace_iff (fun e step hs hkeeps hnot => ?_) ?_ (fun _ hs => hs)
    hs.noLeak h hkeeps
  · exact step.noLeak hs hkeeps hnot
  · exact fun e step _ _ habandons => step.not_noLeak habandons

/-- A client that connects holds the link it has taken. -/
theorem connect_loses_none :
    ∃ es s', trace [.client 0 (.connect "h" 80 .tcp)] (answering ["\r\nOK\r\n"]) = .ok es s' ∧
      s'.wifi.links.isClaimed 3 = true ∧ ∀ e ∈ es, e.after.NoLeak := by
  have hvalue : value? (do
      let _ ← trace [.client 0 (.connect "h" 80 .tcp)]
      return (← get).wifi.links.isClaimed 3) (answering ["\r\nOK\r\n"]) = some true := by
    decide +kernel
  obtain ⟨es, s', hrun, hlast⟩ := value?_bind_eq_some.1 hvalue
  obtain ⟨r, s₁, es', step, hrest, rfl⟩ := trace_cons hrun
  cases hrest
  refine ⟨_, _, hrun, Option.some.inj hlast, ?_⟩
  refine (noLeak_iff (fresh_answering _) hrun ?_).2 ?_
  · rintro e (_ | ⟨_, ⟨⟩⟩)
    trivial
  · rintro e (_ | ⟨_, ⟨⟩⟩)
    cases r <;> first | exact id | (rintro ⟨link, -, hheld, -⟩; cases hheld)

/-- **A server that fails to start loses a link.** -/
theorem failed_start_loses_link :
    ∃ es s', trace [.server 0 .start] (answering ["\r\nERROR\r\n"]) = .ok es s' ∧
      (∀ e ∈ es, e.KeepsHandles) ∧ ¬ s'.NoLeak := by
  have hvalue : value? (do
      let _ ← trace [.server 0 .start]
      return (← get).holding (.server 0)) (answering ["\r\nERROR\r\n"]) = some none := by
    decide +kernel
  obtain ⟨es, s', hrun, hlast⟩ := value?_bind_eq_some.1 hvalue
  have hunheld : s'.holding (.server 0) = none := Option.some.inj hlast
  obtain ⟨r, s₁, es', step, hrest, rfl⟩ := trace_cons hrun
  cases hrest
  refine ⟨_, _, hrun, ?_, step.not_noLeak ?_⟩
  · rintro e (_ | ⟨_, ⟨⟩⟩)
    trivial
  cases step with
  | server effect turn =>
    generalize s'.wifi.links = t' at effect
    cases effect with
    | started claims held => cases (turn.self.trans held).symm.trans hunheld
    | failed claims unheld =>
      intro h hheld
      cases ((fresh_answering _).holding h).symm.trans hheld

end EspWifi.World
