import EspWifi.Proofs.Outcome
import EspWifi.Session.Action
import Mathlib.Algebra.GroupWithZero.Nat

/-!
# What operations do to the link table

The driver knows nothing of the link table: whatever it does on the link, the table stays as it is. So
what an operation of a client, a datagram socket or a server does to the table can be told from its
answer, whatever the module says.

* `LinkTable.slot?_getD_update?`: a change of one slot, whether there is such a slot or not.
* `LinkTable.isClaimed_claim`, `LinkTable.isClaimed_release`, `LinkTable.mem_claimed`: the links in use.
* `LinkTable.le_of_free?`, `LinkTable.free?_eq_none_iff`: the link that is taken next.
* `Client.Leaves`: a client that keeps its link, or gives it back.
* `Client.wp_connect`, `Udp.wp_listen`, `Udp.wp_setRemote`, `Server.wp_start`: the operations that take a
  link.
* `Server.outcomes`, `Server.failed`: **the sends of a broadcast, and the links on which they fail**.
-/

namespace EspWifi

open Run

/-! ### The table -/

namespace LinkTable

variable {t t' : LinkTable} {link other : UInt8}

theorem slot?_eq_none_iff : t.slot? link = none ↔ linkCount ≤ link.toNat :=
  Vector.getElem?_eq_none_iff

theorem update?_eq_none_iff {f : Slot → Slot} : t.update? link f = none ↔ linkCount ≤ link.toNat := by
  simp [update?]

/-- **A change is of one slot**, if there is such a slot, and else of none. -/
theorem slot?_getD_update? {f : Slot → Slot} :
    ((t.update? link f).getD t).slot? other =
      if other = link then (t.slot? link).map f else t.slot? other := by
  cases hu : t.update? link f with
  | some t' => exact slot?_update? hu other
  | none =>
    have hnone : t.slot? link = none := slot?_eq_none_iff.2 (update?_eq_none_iff.1 hu)
    by_cases heq : other = link
    · rw [if_pos heq, heq, Option.getD_none, hnone, Option.map_none]
    · rw [if_neg heq, Option.getD_none]

/-- **A link that is given back is free and has no port.** -/
theorem slot?_release (h : link.toNat < linkCount) : (t.release link).slot? link = some {} := by
  have hslot : t.slot? link = some t.slots[link.toNat] := Vector.getElem?_eq_getElem h
  unfold release
  rw [slot?_getD_update?, if_pos rfl, hslot, Option.map_some]

theorem slot?_fresh : fresh.slot? link = if link.toNat < linkCount then some {} else none := by
  unfold slot? fresh
  exact Vector.getElem?_replicate

theorem isClaimed_fresh : fresh.isClaimed link = false := by
  unfold isClaimed
  rw [slot?_fresh]
  by_cases h : link.toNat < linkCount
  · simp [h]
  · simp [h]

theorem lt_of_isClaimed (h : t.isClaimed link = true) : link.toNat < linkCount := by
  refine Decidable.byContradiction fun hlt => ?_
  simp [isClaimed, slot?, hlt] at h

theorem isClaimed_update? {f : Slot → Slot} (h : t.update? link f = some t') :
    t'.isClaimed other =
      if other = link then (t.slot? link).any fun s => (f s).inUse else t.isClaimed other := by
  unfold isClaimed
  rw [slot?_update? h]
  by_cases heq : other = link
  · rw [if_pos heq, if_pos heq, Option.any_map]
  · rw [if_neg heq, if_neg heq]

theorem lt_of_update? {f : Slot → Slot} (h : t.update? link f = some t') :
    link.toNat < linkCount := by
  refine Decidable.byContradiction fun hlt => ?_
  simp [update?, hlt] at h

/-- A claim is a change of one slot. -/
theorem update?_of_claim (h : t.claim link = .ok t') :
    t.update? link (fun s => { s with inUse := true }) = some t' := by
  unfold claim at h
  split at h
  case h_1 hu => rw [hu, Except.ok.inj h]
  case h_2 => cases h

/-- So is a port that is noted. -/
theorem update?_of_setPort {port : UInt16} (h : t.setPort link port = .ok t') :
    t.update? link (fun s => { s with port := port }) = some t' := by
  unfold setPort at h
  split at h
  case h_1 hu => rw [hu, Except.ok.inj h]
  case h_2 => cases h

/-- **A claim adds its link to those in use.** -/
theorem isClaimed_claim (h : t.claim link = .ok t') :
    t'.isClaimed other = true ↔ other = link ∨ t.isClaimed other = true := by
  have hu := update?_of_claim h
  have hlt := lt_of_update? hu
  have hslot : t.slot? link = some t.slots[link.toNat] := Vector.getElem?_eq_getElem hlt
  rw [isClaimed_update? hu]
  by_cases heq : other = link
  · simp [heq, hslot]
  · simp [heq]

/-- In `t'` the links of `t` are in use, and `link`. -/
def Claims (t : LinkTable) (link : UInt8) (t' : LinkTable) : Prop :=
  ∀ other, t'.isClaimed other = true ↔ other = link ∨ t.isClaimed other = true

theorem claim_ok (h : link.toNat < linkCount) : ∃ t', t.claim link = .ok t' := by
  simp [claim, update?, h]

/-- The port of a link says nothing of its use. -/
theorem isClaimed_setPort {port : UInt16} (h : t.setPort link port = .ok t') :
    t'.isClaimed other = t.isClaimed other := by
  rw [isClaimed_update? (update?_of_setPort h)]
  by_cases heq : other = link
  · rw [if_pos heq, heq]
    rfl
  · rw [if_neg heq]

theorem setPort_ok {port : UInt16} (h : link.toNat < linkCount) : ∃ t', t.setPort link port = .ok t' := by
  simp [setPort, update?, h]

/-- **A release takes its link from those in use.** -/
theorem isClaimed_release :
    (t.release link).isClaimed other = true ↔ other ≠ link ∧ t.isClaimed other = true := by
  unfold isClaimed release
  rw [slot?_getD_update?]
  by_cases heq : other = link
  · rw [if_pos heq, Option.any_map]
    simp [heq]
  · simp [heq]

theorem isClaimed_foldl_release (t : LinkTable) (ls : List UInt8) :
    (ls.foldl release t).isClaimed other = true ↔ t.isClaimed other = true ∧ other ∉ ls := by
  induction ls generalizing t with
  | nil => simp
  | cons link ls ih =>
    rw [List.foldl_cons, ih, isClaimed_release, List.mem_cons, not_or]
    constructor
    · rintro ⟨⟨hne, h⟩, hmem⟩
      exact ⟨h, hne, hmem⟩
    · rintro ⟨h, hne, hmem⟩
      exact ⟨⟨hne, h⟩, hmem⟩

/-- Tables with the same slots are the same. -/
theorem ext_slot? (h : ∀ link, t'.slot? link = t.slot? link) : t' = t := by
  have hslots : t'.slots = t.slots := by
    refine Vector.ext fun i hi => ?_
    have hi' : (UInt8.ofNat i).toNat = i := Nat.mod_eq_of_lt (Nat.lt_trans hi (by decide))
    have hslot := h (UInt8.ofNat i)
    unfold slot? at hslot
    rwa [hi', Vector.getElem?_eq_getElem hi, Vector.getElem?_eq_getElem hi, Option.some_inj] at hslot
  cases t
  cases t'
  exact congrArg mk hslots

/-- **A claim changes nothing exactly if its link is in use already.** -/
theorem eq_of_claim_iff (h : t.claim link = .ok t') : t' = t ↔ t.isClaimed link = true := by
  constructor
  · rintro rfl
    exact (isClaimed_claim h).2 (.inl rfl)
  · intro hclaimed
    obtain ⟨s, hs, hused⟩ := (Option.any_eq_true _ _).1 hclaimed
    refine ext_slot? fun other => ?_
    rw [slot?_update? (update?_of_claim h)]
    by_cases heq : other = link
    · rw [if_pos heq, heq, hs, Option.map_some, ← hused]
    · rw [if_neg heq]

theorem mem_links : link ∈ links ↔ link.toNat < linkCount := by
  constructor
  · have hlinks : links.all (·.toNat < linkCount) = true := by decide
    exact fun h => of_decide_eq_true (List.all_eq_true.1 hlinks link h)
  · intro h
    refine List.mem_map.2 ⟨link.toNat, List.mem_range.2 h, ?_⟩
    exact UInt8.ofNat_toNat

/-- **A free link is not in use.** -/
theorem isClaimed_of_free? (h : t.free? = some link) :
    t.isClaimed link = false ∧ link.toNat < linkCount := by
  have hfree : (!t.isClaimed link) = true := by
    have := List.find?_some h
    exact this
  exact ⟨by simpa using hfree, mem_links.1 (List.mem_reverse.1 (List.mem_of_find?_eq_some h))⟩

/-- **A free link is the greatest one that is not in use.** -/
theorem le_of_free? (h : t.free? = some link) (hlt : other.toNat < linkCount)
    (hother : t.isClaimed other = false) : other ≤ link := by
  have hdown : links.reverse.Pairwise (· > ·) := by decide
  -- the search goes down from the highest link, and those above the one it finds are in use
  obtain ⟨-, above, below, hlinks, habove⟩ := List.find?_eq_some_iff_append.1 h
  have hmem : other ∈ links.reverse := List.mem_reverse.2 (mem_links.2 hlt)
  rw [hlinks] at hdown hmem
  rcases List.mem_append.1 hmem with hmem | hmem
  · have hused := habove other hmem
    rw [hother] at hused
    cases hused
  · rcases List.mem_cons.1 hmem with rfl | hmem
    · exact UInt8.le_refl _
    · exact UInt8.le_of_lt (List.rel_of_pairwise_cons (List.pairwise_append.1 hdown).2.1 hmem)

/-- **No link is free exactly if all of them are in use.** -/
theorem free?_eq_none_iff :
    t.free? = none ↔ ∀ link : UInt8, link.toNat < linkCount → t.isClaimed link = true := by
  unfold free?
  rw [List.find?_eq_none]
  simp [mem_links]

/-- **The links in use are listed**, and no others. -/
theorem mem_claimed : link ∈ t.claimed ↔ t.isClaimed link = true := by
  unfold claimed
  rw [List.mem_filter, mem_links]
  exact and_iff_right_of_imp lt_of_isClaimed

theorem claimed_ascending (t : LinkTable) : t.claimed.Pairwise (· < ·) := by
  have hlinks : links.Pairwise (· < ·) := by decide
  exact hlinks.sublist List.filter_sublist

end LinkTable

variable {σ α : Type} [Device σ] {w : Wifi σ}

/-! ### The network -/

namespace Wifi

omit [Device σ] in
/-- Whatever the driver does, the table stays as it is. -/
theorem wp_onDriver_any {m : Run (Driver σ) α} {Q : α → Wifi σ → Prop}
    (hQ : ∀ a d, Q a { w with driver := d }) : wp True (onDriver m) Q w :=
  wp_onDriver.2 (wp_any fun a d => hQ a d)

omit [Device σ] in
theorem wp_tryDriver_any {x : Attempt (Driver σ) α} {Q : α → Wifi σ → Prop}
    {F : Fault → Wifi σ → Prop} (hQ : ∀ a d, Q a { w with driver := d })
    (hF : ∀ f d, F f { w with driver := d }) : Attempt.wp True (tryDriver x) Q F w :=
  wp_tryDriver.2 (wp_any fun r d => by
    cases r with
    | ok a => exact hQ a d
    | error f => exact hF f d)

theorem wp_logged_any {level : Level} {message : String} {Q : Unit → Wifi σ → Prop}
    {F : Fault → Wifi σ → Prop} (hQ : ∀ d, Q () { w with driver := d }) :
    Attempt.wp True (MonadLog.record level message) Q F w :=
  Attempt.wp_lift.2 (wp_onDriver_any fun _ d => hQ d)

omit [Device σ] in
theorem wp_freeLink {cut : Prop} {Q : Option UInt8 → Wifi σ → Prop} :
    wp cut freeLink Q w ↔ Q w.links.free? w := Iff.rfl

omit [Device σ] in
theorem wp_claim {link : UInt8} {Q : Unit → Wifi σ → Prop} {F : Fault → Wifi σ → Prop}
    (hQ : ∀ t, w.links.claim link = .ok t → Q () { w with links := t })
    (hF : ∀ f, w.links.claim link = .error f → F f w) : Attempt.wp True (claim link) Q F w := by
  unfold claim
  rw [Attempt.wp_bind, Attempt.wp_get, Attempt.wp_bind, Attempt.wp_liftResult]
  cases ht : w.links.claim link with
  | ok t => exact hQ t ht
  | error f => exact hF f ht

omit [Device σ] in
theorem wp_setPort {link : UInt8} {port : UInt16} {Q : Unit → Wifi σ → Prop}
    {F : Fault → Wifi σ → Prop} (hQ : ∀ t, w.links.setPort link port = .ok t → Q () { w with links := t })
    (hF : ∀ f, w.links.setPort link port = .error f → F f w) :
    Attempt.wp True (setPort link port) Q F w := by
  unfold setPort
  rw [Attempt.wp_bind, Attempt.wp_get, Attempt.wp_bind, Attempt.wp_liftResult]
  cases ht : w.links.setPort link port with
  | ok t => exact hQ t ht
  | error f => exact hF f ht

theorem wp_closeLink {link : UInt8} {Q : Unit → Wifi σ → Prop}
    (hQ : ∀ d, Q () { w with driver := d, links := w.links.release link }) :
    wp True (closeLink link) Q w := by
  unfold closeLink
  rw [wp_bind, Attempt.wp_run]
  refine wp_tryDriver_any (fun _ d => ?_) fun f d => ?_
  · exact hQ d
  · rw [wp_bind]
    exact wp_onDriver_any fun _ d => hQ d

end Wifi

/-! ### Clients -/

/-- **A client keeps its link, or gives it back.** -/
inductive Client.Leaves (c : Client) (t : LinkTable) : Client → LinkTable → Prop
  | kept : Leaves c t c t
  | closed {link : UInt8} (held : c.link = some link) : Leaves c t ⟨none⟩ (t.release link)

namespace Client

variable {c c' c'' : Client} {t t' t'' : LinkTable}

/-- A client without a link has nothing to give back. -/
theorem Leaves.eq_of_none (h : Leaves ⟨none⟩ t c' t') : c' = ⟨none⟩ ∧ t' = t := by
  cases h with
  | kept => exact ⟨rfl, rfl⟩
  | closed held => cases held

theorem Leaves.trans (h : c.Leaves t c' t') (h' : c'.Leaves t' c'' t'') : c.Leaves t c'' t'' := by
  cases h with
  | kept => exact h'
  | closed held =>
    obtain ⟨rfl, rfl⟩ := h'.eq_of_none
    exact .closed held

theorem wp_available_any {Q : UInt16 → Wifi σ → Prop} (hQ : ∀ n d, Q n { w with driver := d }) :
    wp True c.available Q w := by
  unfold available
  cases c.link with
  | none => exact hQ 0 w.driver
  | some link => exact Wifi.wp_onDriver_any hQ

theorem wp_close_leaves :
    wp True c.close (fun c' w' => c.Leaves w.links c' w'.links) w := by
  unfold close
  cases hc : c.link with
  | none => exact .kept
  | some link =>
    rw [wp_bind]
    refine Wifi.wp_onDriver_any fun _ d => ?_
    rw [wp_bind]
    exact Wifi.wp_closeLink fun d => .closed hc

/-- **A send that fails gives the link back**, and one that succeeds keeps it. -/
theorem wp_sendOrClose {link : UInt8} (hc : c.link = some link) {send : Attempt (Driver σ) Unit}
    {length : Nat} :
    wp True (c.sendOrClose link send length) (fun r w' =>
      (r.1 = .ok length ∧ r.2 = c ∧ w'.links = w.links) ∨
        ∃ f, r.1 = .error f ∧ r.2 = ⟨none⟩ ∧ w'.links = w.links.release link) w := by
  unfold sendOrClose
  rw [wp_bind, Attempt.wp_run]
  refine Wifi.wp_tryDriver_any (fun _ d => .inl ⟨rfl, rfl, rfl⟩) fun f d => ?_
  rw [wp_bind]
  refine Wifi.wp_onDriver_any fun _ d => ?_
  rw [wp_bind]
  refine Wifi.wp_onDriver_any fun _ d => ?_
  unfold close
  rw [hc, wp_bind, wp_bind]
  refine Wifi.wp_onDriver_any fun _ d => ?_
  rw [wp_bind]
  exact Wifi.wp_closeLink fun d => .inr ⟨f, rfl, rfl, rfl⟩

theorem wp_sendOrClose_leaves {link : UInt8} (hc : c.link = some link)
    {send : Attempt (Driver σ) Unit} {length : Nat} :
    wp True (c.sendOrClose link send length) (fun r w' => c.Leaves w.links r.2 w'.links) w := by
  refine wp_mono (wp_sendOrClose hc) ?_
  rintro ⟨_, _⟩ w' (⟨-, rfl, h⟩ | ⟨_, -, rfl, h⟩)
  · rw [h]
    exact .kept
  · rw [h]
    exact .closed hc

theorem wp_send_leaves {data : Bytes} :
    wp True (c.send data) (fun r w' => c.Leaves w.links r.2 w'.links) w := by
  unfold send
  cases hc : c.link with
  | none => exact .kept
  | some link =>
    dsimp only
    split
    · exact .kept
    · exact wp_sendOrClose_leaves hc

/-- A send on a link, by its outcome. -/
theorem wp_send {link : UInt8} (hc : c.link = some link) {data : Bytes} :
    wp True (c.send data) (fun r w' => (∃ n, r.1 = .ok n ∧ w'.links = w.links) ∨
      ∃ f, r.1 = .error f ∧ w'.links = w.links.release link) w := by
  unfold send
  rw [hc]
  dsimp only
  split
  · exact .inl ⟨0, rfl, rfl⟩
  · refine wp_mono (wp_sendOrClose hc) ?_
    rintro r w' (⟨hok, -, h⟩ | ⟨f, herror, -, h⟩)
    · exact .inl ⟨_, hok, h⟩
    · exact .inr ⟨f, herror, h⟩

theorem wp_sendText_leaves {text : String} {crlf : Bool} :
    wp True (c.sendText text crlf) (fun r w' => c.Leaves w.links r.2 w'.links) w := by
  unfold sendText
  cases hc : c.link with
  | none => exact .kept
  | some link =>
    dsimp only
    split
    · exact .kept
    · exact wp_sendOrClose_leaves hc

theorem wp_getByte_leaves {peek : Bool} :
    wp True (c.getByte peek) (fun r w' => c.Leaves w.links r.2 w'.links) w := by
  unfold getByte
  rw [wp_bind]
  refine wp_available_any fun n d => ?_
  split
  · exact .kept
  cases hc : c.link with
  | none => exact .kept
  | some link =>
    dsimp only
    rw [wp_bind, Attempt.wp_run]
    refine Wifi.wp_tryDriver_any (fun received d => ?_) fun f d => .kept
    dsimp only
    split
    · exact .closed hc
    · exact .kept

theorem wp_readUpTo_keeps {n : Nat} :
    Attempt.wp True (c.readUpTo n) (fun _ w' => w'.links = w.links)
      (fun _ w' => w'.links = w.links) w := by
  unfold readUpTo
  rw [Attempt.wp_bind, Attempt.wp_lift]
  refine wp_available_any fun n d => ?_
  split
  · rfl
  cases c.link with
  | none => rfl
  | some link => exact Wifi.wp_tryDriver_any (fun _ d => rfl) fun f d => rfl

theorem wp_readAll_leaves :
    wp True c.readAll (fun r w' => c.Leaves w.links r.2 w'.links) w := by
  unfold readAll
  rw [wp_bind, wp_get]
  refine wp_loop (I := fun _ r w' => c.Leaves w.links r.2 w'.links) (fun _ _ _ => trivial) ?_ _ _ _
    .kept
  rintro _ ⟨bytes, c'⟩ w' h
  rw [wp_bind]
  refine wp_mono wp_getByte_leaves ?_
  rintro ⟨_ | b, c''⟩ w'' h''
  · exact h.trans h''
  · exact h.trans h''

theorem wp_flush_leaves {maxWait : UInt32} :
    wp True (c.flush maxWait) (fun r w' => c.Leaves w.links r.2 w'.links) w := by
  unfold flush
  rw [wp_bind]
  refine Wifi.wp_onDriver_any fun start d => ?_
  rw [wp_bind, wp_get]
  refine wp_loop (I := fun _ c' w' => c.Leaves w.links c' w'.links) (fun _ _ _ => trivial) ?_ _ _ _
    .kept
  rintro _ c' w' h
  rw [wp_bind]
  refine wp_available_any fun n d => ?_
  split
  · exact h
  rw [wp_bind]
  refine Wifi.wp_onDriver_any fun passed d => ?_
  split
  · exact h
  rw [wp_bind]
  refine wp_mono wp_getByte_leaves ?_
  rintro ⟨_, c''⟩ w'' h''
  exact h.trans h''

theorem wp_status_leaves :
    wp True c.status (fun r w' => c.Leaves w.links r.2 w'.links) w := by
  unfold status
  cases hc : c.link with
  | none => exact .kept
  | some link =>
    dsimp only
    rw [wp_bind]
    refine Wifi.wp_onDriver_any fun n d => ?_
    split
    · exact .kept
    rw [wp_bind, Attempt.wp_run]
    refine Wifi.wp_tryDriver_any (fun listed d => ?_) fun f d => .closed hc
    cases listed with
    | true => exact .kept
    | false => exact .closed hc

theorem wp_connected_leaves :
    wp True c.connected (fun r w' => c.Leaves w.links r.2 w'.links) w := by
  unfold connected
  rw [wp_bind]
  exact wp_mono wp_status_leaves fun _ _ h => h

/-- **A client that connects takes a free link**, and nothing is taken if it does not. -/
theorem wp_connect {host : String} {port : UInt16} {transport : Transport} :
    Attempt.wp True (connect host port transport)
      (fun c' w' => ∃ link, w.links.free? = some link ∧ w.links.claim link = .ok w'.links ∧
        c' = ⟨some link⟩)
      (fun _ w' => w'.links = w.links) w := by
  unfold connect
  rw [Attempt.wp_bind]
  refine Wifi.wp_logged_any fun d => ?_
  rw [Attempt.wp_bind, Attempt.wp_lift, Wifi.wp_freeLink]
  dsimp only
  cases hlink : w.links.free? with
  | none =>
    dsimp only
    rw [Attempt.wp_bind]
    exact Wifi.wp_logged_any fun d => rfl
  | some link =>
    dsimp only
    rw [Attempt.wp_bind]
    refine Wifi.wp_tryDriver_any (fun _ d => ?_) fun f d => rfl
    rw [Attempt.wp_bind]
    exact Wifi.wp_claim (fun t ht => ⟨link, rfl, ht, rfl⟩) fun f _ => rfl

end Client

/-! ### Datagram sockets -/

namespace Udp

variable {u : Udp}

theorem wp_available_any {Q : UInt16 → Wifi σ → Prop} (hQ : ∀ n d, Q n { w with driver := d }) :
    wp True u.available Q w := by
  unfold available
  cases u.link with
  | none => exact hQ 0 w.driver
  | some link => exact Wifi.wp_onDriver_any hQ

/-- **A socket that listens takes a free link**, and nothing is taken if it does not. -/
theorem wp_listen {port : UInt16} :
    Attempt.wp True (u.listen port)
      (fun u' w' => ∃ link t, w.links.free? = some link ∧ w.links.claim link = .ok t ∧
        t.setPort link port = .ok w'.links ∧ u' = { u with link := some link, localPort := port })
      (fun _ w' => w'.links = w.links) w := by
  unfold listen
  rw [Attempt.wp_bind, Attempt.wp_lift, Wifi.wp_freeLink]
  cases hlink : w.links.free? with
  | none =>
    dsimp only
    rw [Attempt.wp_bind]
    exact Wifi.wp_logged_any fun d => rfl
  | some link =>
    dsimp only
    rw [Attempt.wp_bind]
    refine Wifi.wp_tryDriver_any (fun _ d => ?_) fun f d => rfl
    rw [Attempt.wp_bind]
    refine Wifi.wp_claim (fun t ht => ?_) fun f _ => rfl
    rw [Attempt.wp_bind]
    refine Wifi.wp_setPort (fun t' ht' => ?_) fun f hf => ?_
    · rw [Attempt.wp_bind]
      exact Wifi.wp_logged_any fun d => ⟨link, t, rfl, ht, ht', rfl⟩
    · -- a link that was free is a link of the table, so it takes a port
      obtain ⟨t', ht'⟩ : ∃ t', t.setPort link port = .ok t' :=
        LinkTable.setPort_ok (LinkTable.isClaimed_of_free? hlink).2
      rw [show t.setPort link port = .error f from hf] at ht'
      cases ht'

omit [Device σ] in
theorem wp_linkOrFree {Q : UInt8 → Wifi σ → Prop} {F : Fault → Wifi σ → Prop}
    (hQ : ∀ link, (u.link = some link ∨ u.link = none ∧ w.links.free? = some link) → Q link w)
    (hF : ∀ f, F f w) : Attempt.wp True u.linkOrFree Q F w := by
  unfold linkOrFree
  cases hu : u.link with
  | some link => exact hQ link (.inl hu)
  | none =>
    dsimp only
    rw [Attempt.wp_bind, Attempt.wp_lift, Wifi.wp_freeLink]
    cases hlink : w.links.free? with
    | some link => exact hQ link (.inr ⟨hu, hlink⟩)
    | none => exact hF _

omit [Device σ] in
/-- **A socket that is pointed at a host keeps its link, or takes a free one if it has none.** -/
theorem wp_setRemote {host : String} {port : UInt16} :
    Attempt.wp True (u.setRemote host port)
      (fun u' w' => ∃ link, (u.link = some link ∨ u.link = none ∧ w.links.free? = some link) ∧
        w.links.claim link = .ok w'.links ∧ u'.link = some link)
      (fun _ w' => w'.links = w.links) w := by
  unfold setRemote
  split
  · rfl
  rw [Attempt.wp_bind]
  refine wp_linkOrFree (fun link hlink => ?_) fun f => rfl
  rw [Attempt.wp_bind]
  exact Wifi.wp_claim (fun t ht => ⟨link, hlink, ht, rfl⟩) fun f _ => rfl

theorem wp_send_keeps {data : Bytes} :
    Attempt.wp True (u.send data) (fun _ w' => w'.links = w.links)
      (fun _ w' => w'.links = w.links) w := by
  unfold send
  cases u.link with
  | none => rfl
  | some link =>
    dsimp only
    rw [Attempt.wp_bind]
    exact Wifi.wp_tryDriver_any (fun _ d => rfl) fun f d => rfl

theorem wp_getByte_keeps {peek : Bool} :
    wp True (u.getByte peek) (fun _ w' => w'.links = w.links) w := by
  unfold getByte
  rw [wp_bind]
  refine wp_available_any fun n d => ?_
  split
  · rfl
  cases u.link with
  | none => rfl
  | some link =>
    dsimp only
    rw [wp_bind, Attempt.wp_run]
    exact Wifi.wp_tryDriver_any (fun _ d => rfl) fun f d => rfl

theorem wp_readUpTo_keeps {n : Nat} :
    Attempt.wp True (u.readUpTo n) (fun _ w' => w'.links = w.links)
      (fun _ w' => w'.links = w.links) w := by
  unfold readUpTo
  rw [Attempt.wp_bind, Attempt.wp_lift]
  refine wp_available_any fun n d => ?_
  split
  · rfl
  cases u.link with
  | none => rfl
  | some link => exact Wifi.wp_tryDriver_any (fun _ d => rfl) fun f d => rfl

theorem wp_skip_keeps (n : Nat) : wp True (u.skip n) (fun _ w' => w'.links = w.links) w := by
  induction n generalizing w with
  | zero => rfl
  | succ n ih =>
    unfold skip
    rw [wp_bind]
    refine wp_mono wp_getByte_keeps fun byte w' h => ?_
    cases byte with
    | none => exact h
    | some b => exact wp_mono ih fun _ w'' h'' => h''.trans h

theorem wp_flush_keeps : wp True u.flush (fun _ w' => w'.links = w.links) w := by
  unfold flush
  rw [wp_bind]
  exact wp_available_any fun n d => wp_skip_keeps n.toNat

/-- **A socket that is closed gives its link back.** -/
theorem wp_close :
    wp True u.close (fun u' w' => (u' = u ∧ w'.links = w.links) ∨
      ∃ link, u.link = some link ∧ u'.link = none ∧ w'.links = w.links.release link) w := by
  unfold close
  cases hu : u.link with
  | none => exact .inl ⟨rfl, rfl⟩
  | some link =>
    dsimp only
    rw [wp_bind]
    refine wp_mono wp_flush_keeps fun _ w' h => ?_
    rw [wp_bind]
    exact Wifi.wp_closeLink fun d => .inr ⟨link, rfl, rfl, by rw [h]⟩

end Udp

/-! ### Servers -/

namespace Server

variable {v : Server}

/-- **A server that starts has its link in use**, and so has one that fails to. -/
theorem wp_start :
    wp True v.start (fun r w' => w.links.claim serverLink = .ok w'.links ∧
      ((r.1 = .ok () ∧ r.2 = { v with started := true }) ∨
        ∃ f, r.1 = .error f ∧ r.2 = { v with started := false })) w := by
  unfold start
  rw [wp_bind, Attempt.wp_run]
  refine Wifi.wp_claim (fun t ht => ?_) fun f hf => ?_
  · dsimp only
    rw [wp_bind, Attempt.wp_run]
    refine Wifi.wp_tryDriver_any (fun _ d => ?_) fun f d => ?_
    · rw [wp_bind]
      exact Wifi.wp_onDriver_any fun _ d => ⟨ht, .inl ⟨rfl, rfl⟩⟩
    · rw [wp_bind]
      exact Wifi.wp_onDriver_any fun _ d => ⟨ht, .inr ⟨f, rfl, rfl⟩⟩
  · obtain ⟨t, ht⟩ : ∃ t, w.links.claim serverLink = .ok t := LinkTable.claim_ok (by decide)
    rw [ht] at hf
    cases hf

/-- **A client that is accepted has its link in use.** -/
theorem wp_accept :
    wp True accept (fun r w' => (r = none ∧ w'.links = w.links) ∨
      ∃ link, r = some ⟨some link⟩ ∧ w.links.claim link = .ok w'.links) w := by
  unfold accept
  rw [wp_bind]
  refine Wifi.wp_onDriver_any fun n d => ?_
  split
  · exact .inl ⟨rfl, rfl⟩
  rw [wp_bind, wp_get]
  dsimp only
  rw [wp_bind]
  refine Wifi.wp_onDriver_any fun _ d => ?_
  rw [wp_bind, Attempt.wp_run]
  exact Wifi.wp_claim (fun t ht => .inr ⟨_, rfl, ht⟩) fun f _ => .inl ⟨rfl, rfl⟩

/-- The sends of a broadcast: each link with the outcome of the send on it. -/
def outcomes (data : Bytes) : List UInt8 → Run (Wifi σ) (List (UInt8 × Except Fault Nat))
  | [] => return []
  | link :: links => do
    let result := (← Client.send ⟨some link⟩ data).1
    return (link, result) :: (← outcomes data links)

/-- The bytes that were sent. -/
def sentBytes : Except Fault Nat → Nat
  | .ok n => n
  | .error _ => 0

/-- **A broadcast answers with the sum of what its sends have sent.** -/
theorem sendEach_eq (data : Bytes) (links : List UInt8) :
    (sendEach data links : Run (Wifi σ) Nat) = (do
      let sends ← outcomes data links
      return (sends.map fun send => sentBytes send.2).sum) := by
  induction links with
  | nil => rfl
  | cons link links ih =>
    unfold sendEach outcomes
    rw [ih, bind_assoc]
    refine bind_congr fun sent => ?_
    simp only [bind_assoc, pure_bind, List.map_cons, List.sum_cons]
    rfl

/-- The links on which a send failed. -/
def failures (sends : List (UInt8 × Except Fault Nat)) : List UInt8 :=
  (sends.filter fun send => !send.2.isOk).map (·.1)

/-- The links a broadcast sends to. -/
def audience (t : LinkTable) : List UInt8 := t.claimed.filter (· ≠ serverLink)

/-- **A broadcast attempts each of its links once and gives back those on which the send fails.** -/
theorem wp_outcomes (data : Bytes) (links : List UInt8) :
    wp True (outcomes data links) (fun sends w' => sends.map (·.1) = links ∧
      w'.links = (failures sends).foldl LinkTable.release w.links) w := by
  induction links generalizing w with
  | nil => exact ⟨rfl, rfl⟩
  | cons link links ih =>
    unfold outcomes
    rw [wp_bind]
    refine wp_mono (Client.wp_send rfl) ?_
    rintro ⟨r, c⟩ w' hr
    rw [wp_bind]
    refine wp_mono ih ?_
    rintro sends w'' ⟨hlinks, htable⟩
    refine ⟨congrArg (link :: ·) hlinks, ?_⟩
    rw [htable]
    -- a link is given back by its own send, before the next one is attempted
    rcases hr with ⟨n, hok, h⟩ | ⟨f, herror, h⟩
    · obtain rfl : r = .ok n := hok
      rw [h]
      rfl
    · obtain rfl : r = .error f := herror
      rw [h]
      rfl

/-- The links on which a broadcast fails. -/
def failed (data : Bytes) (w : Wifi σ) : List UInt8 :=
  failures ((value? (outcomes data (audience w.links)) w).getD [])

/-- **After a broadcast those links are in use that were, and on which it did not fail.** -/
theorem wp_broadcast (data : Bytes) :
    wp True (broadcast data) (fun _ w' => ∀ l, w'.links.isClaimed l = true ↔
      w.links.isClaimed l = true ∧ l ∉ failed data w) w := by
  unfold broadcast
  rw [wp_bind, wp_get, sendEach_eq, wp_bind]
  refine wp_mono (wp_and_result (wp_outcomes data (audience w.links))) ?_
  rintro sends w' ⟨⟨-, htable⟩, hrun⟩ l
  -- the links that `failed` computes are those of this very run
  have hfailed : failed data w = failures sends := by
    have hvalue : value? (outcomes data (audience w.links)) w = some sends :=
      value?_eq_some.2 ⟨w', hrun⟩
    rw [failed, hvalue, Option.getD_some]
  rw [hfailed, htable]
  exact LinkTable.isClaimed_foldl_release w.links (failures sends)

/-- The server's own link is not sent to. -/
theorem serverLink_not_mem_failed (data : Bytes) (w : Wifi σ) : serverLink ∉ failed data w := by
  unfold failed
  cases h : value? (outcomes data (audience w.links)) w with
  | none => exact List.not_mem_nil
  | some sends =>
    obtain ⟨w', hrun⟩ := value?_eq_some.1 h
    obtain ⟨hlinks, -⟩ := wp_of_ok (wp_outcomes data (audience w.links)) hrun
    intro hmem
    obtain ⟨send, hsend, hlink⟩ := List.mem_map.1 hmem
    have haudience : serverLink ∈ audience w.links := by
      rw [← hlinks, ← hlink]
      exact List.mem_map_of_mem (List.mem_filter.1 hsend).1
    simp [audience] at haudience

end Server

end EspWifi
