import EspWifi.Proofs.Net.Slots
import Mathlib.Data.List.DropRight

/-!
# The history of the link table

Links are claimed, given back and noted with a port in any order, and with numbers that no link has. What
the table says of a link depends on nothing but what was done to that link last.

* `TableAction.slot?_perform`: **what one operation does to the table**; the laws of operations follow.
* `TableAction.perform_comm`, `TableAction.perform_missing`: operations on different links, and on none.
* `LinkTable.lastUse?`, `LinkTable.lastPort?`: what was done to a link last.
* `LinkTable.slot?_after`: a slot holds what the history of its link comes to.
* `LinkTable.after_accounts`: **what a table says** after any operations.
-/

namespace EspWifi

/-! ### The table -/

namespace LinkTable

variable {t : LinkTable} {link : UInt8}

/-- **The free link is the greatest one that is not in use.** -/
theorem free?_eq_some_iff :
    t.free? = some link ↔ link.toNat < linkCount ∧ t.isClaimed link = false ∧
      ∀ other : UInt8, other.toNat < linkCount → t.isClaimed other = false → other ≤ link := by
  constructor
  · intro h
    obtain ⟨hunused, hlt⟩ := isClaimed_of_free? h
    exact ⟨hlt, hunused, fun other => le_of_free? h⟩
  · rintro ⟨hlt, hunused, hgreatest⟩
    cases hfree : t.free? with
    | none =>
      rw [free?_eq_none_iff.1 hfree link hlt] at hunused
      cases hunused
    | some found =>
      obtain ⟨hfound, hfoundlt⟩ := isClaimed_of_free? hfree
      have hle : found ≤ link := hgreatest found hfoundlt hfound
      rw [UInt8.le_antisymm hle (le_of_free? hfree hlt hunused)]

/-- A link that is not in use and has no port has the slot of a new table. -/
theorem slot?_eq_of_unused (hlt : link.toNat < linkCount) (hunused : t.isClaimed link = false)
    (hport : t.port link = 0) : t.slot? link = some {} := by
  have hslot : t.slot? link = some t.slots[link.toNat] := Vector.getElem?_eq_getElem hlt
  unfold isClaimed at hunused
  unfold port at hport
  rw [hslot] at hunused hport ⊢
  cases hs : t.slots[link.toNat] with
  | mk inUse number =>
    rw [hs] at hunused hport
    obtain rfl : inUse = false := hunused
    obtain rfl : number = 0 := hport
    rfl

/-- **A table is a new one exactly if no link is in use and no port is noted.** -/
theorem eq_fresh_iff : t = fresh ↔ t.claimed = [] ∧ ∀ link, t.port link = 0 := by
  constructor
  · rintro rfl
    refine ⟨List.filter_eq_nil_iff.2 fun link _ => ?_, fun link => ?_⟩
    · rw [isClaimed_fresh]
      exact Bool.false_ne_true
    · unfold port
      rw [slot?_fresh]
      by_cases hlt : link.toNat < linkCount
      · rw [if_pos hlt]
        rfl
      · rw [if_neg hlt]
        rfl
  · rintro ⟨hclaimed, hports⟩
    refine ext_slot? fun link => ?_
    rw [slot?_fresh]
    by_cases hlt : link.toNat < linkCount
    · have hunused : t.isClaimed link = false := by
        rw [Bool.eq_false_iff]
        intro hused
        rw [← mem_claimed, hclaimed] at hused
        exact List.not_mem_nil hused
      rw [if_pos hlt]
      exact slot?_eq_of_unused hlt hunused (hports link)
    · rw [if_neg hlt]
      exact slot?_eq_none_iff.2 (Nat.not_lt.1 hlt)

end LinkTable

/-! ### Single operations -/

namespace TableAction

variable {t t' : LinkTable} {link other : UInt8} {a b : TableAction}

/-- The link an operation is about, if it is about one. -/
def link? : TableAction → Option UInt8
  | claim link | release link | setPort link _ | port link | isClaimed link => some link
  | free | claimed => none

/-- **What an operation makes of the slot of its link.** -/
def change : TableAction → Slot → Slot
  | claim _ => fun s => { s with inUse := true }
  | release _ => fun _ => {}
  | setPort _ number => fun s => { s with port := number }
  | port _ | isClaimed _ | free | claimed => id

/-- The port that an operation notes for a link. -/
def noted? (link : UInt8) : TableAction → Option UInt16
  | setPort other number => if other = link then some number else none
  | _ => none

/-- What is answered if a link can be changed, and if there is no such link. -/
def answer (link : UInt8) : Reply :=
  if link.toNat < linkCount then .ok else .fault .invalidLink

/-- A change that is refused if there is no such link, with its answer. -/
theorem perform_update (t : LinkTable) (link : UInt8) (f : Slot → Slot) :
    (match (match t.update? link f with
        | some t => Except.ok t
        | none => .error Fault.invalidLink) with
      | .ok t => (Reply.ok, t)
      | .error fault => (.fault fault, t)) = (answer link, (t.update? link f).getD t) := by
  unfold answer
  cases hu : t.update? link f with
  | some t' => rw [if_pos (LinkTable.lt_of_update? hu), Option.getD_some]
  | none => rw [if_neg (Nat.not_lt.2 (LinkTable.update?_eq_none_iff.1 hu)), Option.getD_none]

theorem perform_claim (t : LinkTable) (link : UInt8) :
    (claim link).perform t = (answer link, (t.update? link (claim link).change).getD t) :=
  perform_update t link _

theorem perform_setPort (t : LinkTable) (link : UInt8) (number : UInt16) :
    (setPort link number).perform t =
      (answer link, (t.update? link (setPort link number).change).getD t) :=
  perform_update t link _

/-- **An operation changes the slot of its link**, and no other. -/
theorem slot?_perform (a : TableAction) (t : LinkTable) (other : UInt8) :
    (a.perform t).2.slot? other =
      if a.link? = some other then (t.slot? other).map a.change else t.slot? other := by
  have update (link : UInt8) (f : Slot → Slot) :
      ((t.update? link f).getD t).slot? other =
        if some link = some other then (t.slot? other).map f else t.slot? other := by
    rw [LinkTable.slot?_getD_update?]
    by_cases heq : other = link
    · rw [if_pos heq, if_pos (congrArg some heq.symm), heq]
    · rw [if_neg heq, if_neg fun h => heq (Option.some.inj h).symm]
  cases a with
  | claim link =>
    rw [perform_claim]
    exact update link _
  | setPort link number =>
    rw [perform_setPort]
    exact update link _
  | release link => exact update link fun _ => {}
  | port link => simp [perform, change]
  | isClaimed link => simp [perform, change]
  | free => rfl
  | claimed => rfl

/-- **What is answered about a link depends on its slot alone.** -/
theorem answer_congr (ha : a.link? = some link) (h : t'.slot? link = t.slot? link) :
    (a.perform t').1 = (a.perform t).1 := by
  cases a with
  | claim other => rw [perform_claim, perform_claim]
  | setPort other number => rw [perform_setPort, perform_setPort]
  | release other => rfl
  | port other =>
    obtain rfl : other = link := Option.some.inj ha
    show Reply.number (t'.port other).toNat = .number (t.port other).toNat
    unfold LinkTable.port
    rw [h]
  | isClaimed other =>
    obtain rfl : other = link := Option.some.inj ha
    show Reply.flag (t'.isClaimed other) = .flag (t.isClaimed other)
    unfold LinkTable.isClaimed
    rw [h]
  | free => cases ha
  | claimed => cases ha

/-- **Operations on different links commute**, and neither answers otherwise because of the other. -/
theorem perform_comm (ha : a.link? = some link) (hb : b.link? = some other) (hne : link ≠ other)
    (t : LinkTable) :
    (b.perform (a.perform t).2).1 = (b.perform t).1 ∧
      (b.perform (a.perform t).2).2 = (a.perform (b.perform t).2).2 := by
  have hslot : (a.perform t).2.slot? other = t.slot? other := by
    rw [slot?_perform, ha, if_neg fun h => hne (Option.some.inj h)]
  refine ⟨answer_congr hb hslot, LinkTable.ext_slot? fun l => ?_⟩
  rw [slot?_perform, slot?_perform, slot?_perform, slot?_perform, ha, hb]
  -- no slot is changed by both of them
  by_cases hl : some link = some l
  · have hl' : some other ≠ some l := fun h => hne (Option.some.inj (hl.trans h.symm))
    rw [if_neg hl', if_pos hl, if_neg hl', if_pos hl]
  · rw [if_neg hl, if_neg hl]

/-- **An operation on a number that no link has changes nothing.** -/
theorem perform_missing (ha : a.link? = some link) (h : linkCount ≤ link.toNat) (t : LinkTable) :
    (a.perform t).2 = t := by
  refine LinkTable.ext_slot? fun l => ?_
  rw [slot?_perform, ha]
  by_cases hl : some link = some l
  · have hnone : t.slot? l = none := LinkTable.slot?_eq_none_iff.2 (Option.some.inj hl ▸ h)
    rw [if_pos hl, hnone, Option.map_none]
  · rw [if_neg hl]

end TableAction

/-! ### Rows of operations -/

namespace LinkTable

open TableAction

variable (link : UInt8) (actions : List TableAction) (a : TableAction)

/-- A new table after a row of operations. -/
def after : LinkTable := actions.foldl (fun t a => (a.perform t).2) fresh

theorem after_concat : after (actions ++ [a]) = (a.perform (after actions)).2 := by
  unfold after
  rw [List.foldl_append, List.foldl_cons, List.foldl_nil]

/-- **The last operation that claimed a link or gave it back.** -/
def lastUse? : Option TableAction :=
  (actions.filter fun a => a = .claim link ∨ a = .release link).getLast?

/-- **The port that was noted last for a link** since it was last given back. -/
def lastPort? : Option UInt16 :=
  ((actions.rtakeWhile fun a => a ≠ .release link).filterMap (noted? link)).getLast?

theorem lastUse?_concat :
    lastUse? link (actions ++ [a]) =
      if a = .claim link ∨ a = .release link then some a else lastUse? link actions := by
  unfold lastUse?
  by_cases h : a = .claim link ∨ a = .release link
  · rw [if_pos h, List.filter_append, List.filter_singleton, decide_eq_true h, cond_true,
      List.getLast?_concat]
  · rw [if_neg h, List.filter_append, List.filter_singleton, decide_eq_false h,
      cond_false, List.append_nil]

theorem lastPort?_concat :
    lastPort? link (actions ++ [a]) =
      if a = .release link then none else (a.noted? link).or (lastPort? link actions) := by
  unfold lastPort?
  rw [List.rtakeWhile_concat]
  by_cases h : a = .release link
  · rw [if_pos h, if_neg (by simpa using h)]
    rfl
  · rw [if_neg h, if_pos (by simpa using h), List.filterMap_append]
    cases hnoted : a.noted? link with
    | none => simp [hnoted]
    | some number => simp [hnoted]

/-- **The slot that the history of a link comes to.** -/
def slotOf : Slot where
  inUse := lastUse? link actions = some (.claim link)
  port := (lastPort? link actions).getD 0

theorem slotOf_concat :
    slotOf link (actions ++ [a]) =
      if a.link? = some link then a.change (slotOf link actions) else slotOf link actions := by
  unfold slotOf
  rw [lastUse?_concat, lastPort?_concat]
  cases a with
  | free | claimed => simp [link?, noted?]
  | claim other | release other | setPort other number | port other | isClaimed other =>
    by_cases h : other = link
    · simp [h, link?, change, noted?]
    · simp [h, link?, noted?]

/-- **A slot holds what the history of its link comes to.** -/
theorem slot?_after :
    (after actions).slot? link =
      if link.toNat < linkCount then some (slotOf link actions) else none := by
  induction actions using List.reverseRecOn with
  | nil => exact slot?_fresh
  | append_singleton actions a ih =>
    rw [after_concat, slot?_perform, slotOf_concat, ih]
    by_cases hlt : link.toNat < linkCount
    · by_cases ha : a.link? = some link
      · rw [if_pos hlt, if_pos ha, if_pos hlt, if_pos ha, Option.map_some]
      · rw [if_neg ha, if_pos hlt, if_pos hlt, if_neg ha]
    · rw [if_neg hlt, if_neg hlt, Option.map_none, ite_self]

/-- A link is in use if it was claimed and not given back since. -/
theorem isClaimed_after :
    (after actions).isClaimed link = true ↔
      link.toNat < linkCount ∧ lastUse? link actions = some (.claim link) := by
  unfold isClaimed
  rw [slot?_after]
  by_cases hlt : link.toNat < linkCount
  · simp [hlt, slotOf]
  · simp [hlt]

theorem port_after :
    (after actions).port link =
      if link.toNat < linkCount then (lastPort? link actions).getD 0 else 0 := by
  unfold port
  rw [slot?_after]
  by_cases hlt : link.toNat < linkCount
  · rw [if_pos hlt, if_pos hlt]
    rfl
  · rw [if_neg hlt, if_neg hlt]
    rfl

/-- **A table accounts for all that was done to it**, in whatever order and with whatever numbers. It lists,
in ascending order, the links for which the last claim or release was a claim. The free link is the greatest
one that it does not list, and there is none exactly if it lists them all. The port of a link is the one that
was noted last since the link was last given back, and 0 if there is none. An operation on a number that no
link has changes nothing, and to claim it or to note a port for it is refused. Operations on different links
commute, and neither answers otherwise because of the other. The table equals a new one exactly if it lists
no link and all ports are 0. -/
theorem after_accounts (actions : List TableAction) :
    let t := after actions
    (t.claimed.Pairwise (· < ·) ∧ ∀ link, (t.isClaimed link = true ↔ link ∈ t.claimed) ∧
        (link ∈ t.claimed ↔
          link.toNat < linkCount ∧ lastUse? link actions = some (.claim link))) ∧
      ((∀ link, t.free? = some link ↔ link.toNat < linkCount ∧ link ∉ t.claimed ∧
          ∀ other : UInt8, other.toNat < linkCount → other ∉ t.claimed → other ≤ link) ∧
        (t.free? = none ↔ ∀ link : UInt8, link.toNat < linkCount → link ∈ t.claimed)) ∧
      (∀ link, t.port link =
        if link.toNat < linkCount then (lastPort? link actions).getD 0 else 0) ∧
      (∀ (a : TableAction) (link : UInt8), a.link? = some link → linkCount ≤ link.toNat →
        (a.perform t).2 = t) ∧
      (∀ (link : UInt8) (number : UInt16), linkCount ≤ link.toNat →
        ((TableAction.claim link).perform t).1 = .fault .invalidLink ∧
          ((TableAction.setPort link number).perform t).1 = .fault .invalidLink) ∧
      (∀ (a b : TableAction) (link other : UInt8), a.link? = some link → b.link? = some other →
        link ≠ other → (b.perform (a.perform t).2).1 = (b.perform t).1 ∧
          (b.perform (a.perform t).2).2 = (a.perform (b.perform t).2).2) ∧
      (t = fresh ↔ t.claimed = [] ∧ ∀ link, t.port link = 0) := by
  intro t
  have hlisted (link : UInt8) : link ∉ t.claimed ↔ t.isClaimed link = false := by
    rw [mem_claimed, Bool.not_eq_true]
  refine ⟨⟨t.claimed_ascending, fun link => ⟨mem_claimed.symm, ?_⟩⟩, ⟨fun link => ?_, ?_⟩,
    fun link => port_after link actions, fun a link ha h => perform_missing ha h t,
    fun link number h => ⟨?_, ?_⟩, fun a b link other ha hb hne => perform_comm ha hb hne t,
    eq_fresh_iff⟩
  · rw [mem_claimed]
    exact isClaimed_after link actions
  · simp only [hlisted]
    exact free?_eq_some_iff
  · simp only [mem_claimed]
    exact free?_eq_none_iff
  · rw [perform_claim]
    exact if_neg (Nat.not_lt.2 h)
  · rw [perform_setPort]
    exact if_neg (Nat.not_lt.2 h)

/-- A link that is given back is the next one to be taken, and its port is forgotten. -/
example : let t := after [.claim 3, .setPort 3 8888, .claim 2, .setPort 7 80, .release 3]
    t.free? = some 3 ∧ t.port 3 = 0 ∧ t.claimed = [2] := by decide

end LinkTable

end EspWifi
