import EspWifi.Proofs.Modem.Receiving
import EspWifi.Session.Bench

/-!
# Whose bytes are handed out

The driver counts down the payload of its packet and takes for payload whatever comes next in the
stream. Which bytes of the stream are payload of which link is for the module to say; a tap on the
link tells at which place of the stream a byte was read.

* `OwnPayload`: what comes next in the stream is the payload of the packet.
* `OwnPayload.traced`: as long as that holds, **every byte goes to the link it was sent for**;
  `HandsOutForeign.of_not_ownPayload`: where it does not, reads hand out a byte of something else.
* `command_attributes`: what a command makes of it: what it throws away is made up for, what it
  reads is not.
-/

namespace EspWifi

open Run

variable {σ : Type} [Device σ]

/-- Carry out a command, whatever is made of its answer. -/
def Command.issue : Command → Attempt (Driver σ) Unit
  | .request pieces timeout => do
    let _ ← tryEngine (Engine.request pieces timeout)
  | .requestOk pieces timeout => tryEngine (Engine.requestOk pieces timeout)
  | .queryField command start stop m => do
    let _ ← tryEngine (Engine.queryField command start stop m)

theorem Command.wp_issue (L : Ledger σ) {cmd : Command} {d : Driver σ} {Q : Unit → Driver σ → Prop}
    {F : Fault → Driver σ → Prop}
    (hQ : ∀ z t w d', d.engine.Issues L d'.engine z t w → d'.packet = d.packet → t ≠ [] → Q () d')
    (hF : ∀ f z t w d', d.engine.Issues L d'.engine z t w → d'.packet = d.packet → F f d') :
    Attempt.wp True cmd.issue Q F d := by
  have answered : ∀ {tag : Tag} {t : Bytes}, tag.bytes <:+ t → t ≠ [] := by
    rintro tag t ht rfl
    have := List.suffix_nil.1 ht
    cases tag <;> exact absurd this (by decide)
  cases cmd with
  | request pieces timeout =>
    unfold issue
    rw [Attempt.wp_bind, wp_tryEngine]
    exact L.wp_request (fun tag z t w e h ht => hQ z t w _ h rfl (answered ht)) fun f z t w e h =>
      hF f z t w _ h rfl
  | requestOk pieces timeout =>
    unfold issue
    rw [wp_tryEngine]
    exact L.wp_requestOk (fun z t w e h ht => hQ z t w _ h rfl (answered ht)) fun f z t w e h =>
      hF f z t w _ h rfl
  | queryField command start stop m =>
    unfold issue
    rw [Attempt.wp_bind, wp_tryEngine]
    exact L.wp_queryField (fun a z t w e h ht => hQ z t w _ h rfl ht) fun f z t w e h =>
      hF f z t w _ h rfl

/-! ### Places in the stream -/

/-- A payload byte that was handed out. -/
structure Handed where
  /-- The link it was handed to. -/
  link : UInt8
  /-- Its place in the stream. -/
  position : Nat
  byte : UInt8

/-- Bytes that were handed out from a place of the stream on. -/
def handedAt (start : Nat) (bytes : List (UInt8 × UInt8)) : List Handed :=
  bytes.mapIdx fun i b => ⟨b.1, start + i, b.2⟩

theorem handedAt_append (start : Nat) (bs bs' : List (UInt8 × UInt8)) :
    handedAt start (bs ++ bs') = handedAt start bs ++ handedAt (start + bs.length) bs' := by
  simp [handedAt, List.mapIdx_append, Nat.add_left_comm, Nat.add_comm]

theorem mem_handedAt {start : Nat} {link : UInt8} {x : Bytes} {b : Handed} :
    b ∈ handedAt start (x.map (link, ·)) ↔
      b.link = link ∧ ∃ i, b.position = start + i ∧ x[i]? = some b.byte := by
  unfold handedAt
  rw [List.mem_mapIdx]
  constructor
  · rintro ⟨i, hi, rfl⟩
    rw [List.length_map] at hi
    exact ⟨by simp, i, rfl, by simp⟩
  · rintro ⟨hlink, i, hposition, hbyte⟩
    obtain ⟨hi, hget⟩ := List.getElem?_eq_some_iff.1 hbyte
    refine ⟨i, by simpa using hi, ?_⟩
    simp [hget, ← hlink, ← hposition]

/-- Make the calls of a run, and note what they hand out. -/
def Inbound.traced : List Inbound → Run (Driver (Tap σ)) (List Handed)
  | [] => return []
  | c :: cs => do
    let start := (← get).engine.device.taken.length
    let answer ← c.perform
    return handedAt start (handed c answer) ++ (← traced cs)

variable {mine : UInt8 → Nat → Prop} {d d' : Driver (Tap σ)}

/-- **What comes next in the stream is the payload of the packet**, as much of it as the packet has
left: `mine link n` says that the byte at the place `n` of the stream is payload of `link`. -/
def OwnPayload (mine : UInt8 → Nat → Prop) (d : Driver (Tap σ)) : Prop :=
  ∀ i < d.packet.remaining.toNat, mine d.packet.link (d.engine.device.taken.length + i)

/-- **Every header that is read in a run is a true one**: when a call began with a drained or a lost
packet, the packet that it ends with is followed by its payload. -/
def TrueHeaders (mine : UInt8 → Nat → Prop) : List Inbound → Driver (Tap σ) → Prop
  | [], _ => True
  | c :: cs, d => ∀ answer d', c.perform d = .ok answer d' →
    ((d.packet.isDrained = true ∨ 0 < d.engine.dropped) → OwnPayload mine d') ∧
      TrueHeaders mine cs d'

/-- **Reads hand out a byte that is not payload of their link**, as soon as they have handed out as
many bytes as the packet has left. -/
def HandsOutForeign (mine : UInt8 → Nat → Prop) (d : Driver (Tap σ)) : Prop :=
  ∀ reads bs d', (∀ call ∈ reads, call.isRead = true) → Inbound.traced reads d = .ok bs d' →
    bs.length = d.packet.remaining.toNat →
    ∃ b ∈ bs, b.link = d.packet.link ∧ ¬ mine b.link b.position ∧
      d'.engine.device.taken[b.position]? = some b.byte

omit [Device σ] in
theorem OwnPayload.of_drained (h : d.packet.isDrained = true) : OwnPayload mine d := by
  intro i hi
  rw [Packet.isDrained_iff.1 h] at hi
  exact absurd hi (Nat.not_lt_zero _)

/-- Payload that is handed out came from the front of what follows, and what is left follows it. -/
theorem Driver.Hands.attributed {x : Bytes} (h : d.Hands Tap.ledger d' x)
    (hown : d.engine.dropped = 0 → OwnPayload mine d) :
    (d'.engine.dropped = 0 → OwnPayload mine d') ∧
      ∀ b ∈ handedAt d.engine.device.taken.length (x.map (d.packet.link, ·)),
        mine b.link b.position ∧ d'.engine.device.taken[b.position]? = some b.byte := by
  have hle := h.le
  constructor
  · intro _
    cases h with
    | ended _ _ _ drained => exact .of_drained drained
    | took fresh moves packet le =>
      intro i hi
      rw [packet] at hi ⊢
      dsimp only at hi ⊢
      rw [toNat_sub_toUInt16 le] at hi
      have htaken : d'.engine.device.taken = d.engine.device.taken ++ x := moves.device
      rw [htaken, List.length_append, Nat.add_assoc]
      exact hown fresh (x.length + i) (by omega)
  · intro b hb
    obtain ⟨hlink, i, hposition, hbyte⟩ := mem_handedAt.1 hb
    obtain ⟨hi, -⟩ := List.getElem?_eq_some_iff.1 hbyte
    have fresh : d.engine.dropped = 0 := by
      refine h.fresh.resolve_left fun hnil => ?_
      rw [hnil] at hi
      exact absurd hi (Nat.not_lt_zero _)
    obtain ⟨c, hc⟩ := h.moves
    have htaken : d'.engine.device.taken = d.engine.device.taken ++ (x ++ c) := hc
    refine ⟨?_, ?_⟩
    · rw [hlink, hposition]
      exact hown fresh i (by omega)
    · rw [htaken, hposition, List.getElem?_append_right (by omega), Nat.add_sub_cancel_left,
        List.getElem?_append_left hi]
      exact hbyte

/-- A byte keeps its place in the stream. -/
theorem getElem?_of_moves {n : Nat} {b : UInt8} {c w : Bytes}
    (hm : Tap.ledger.moves d.engine.device d'.engine.device c w)
    (h : d.engine.device.taken[n]? = some b) : d'.engine.device.taken[n]? = some b := by
  have htaken : d'.engine.device.taken = d.engine.device.taken ++ c := hm
  obtain ⟨hn, -⟩ := List.getElem?_eq_some_iff.1 h
  rw [htaken, List.getElem?_append_left hn]
  exact h

/-- **If the payload of the packet comes next, and every header that is read is a true one, every byte
that is handed out is payload of the link it is handed to.** -/
theorem OwnPayload.traced {calls : List Inbound} (hown : d.engine.dropped = 0 → OwnPayload mine d)
    (hheaders : TrueHeaders mine calls d) :
    wp True (Inbound.traced calls) (fun bs d' =>
      (∃ c, Tap.ledger.moves d.engine.device d'.engine.device c []) ∧
      ∀ b ∈ bs, mine b.link b.position ∧ d'.engine.device.taken[b.position]? = some b.byte) d := by
  induction calls generalizing d with
  | nil => exact ⟨⟨[], Tap.ledger.refl _⟩, by simp⟩
  | cons c cs ih =>
    unfold Inbound.traced
    rw [wp_bind, wp_get, wp_bind]
    -- what one call does, and that the rest of the run has true headers, too
    have hcall := wp_and_result (show wp True c.perform _ d from Driver.wp_perform_any Tap.ledger)
    refine wp_mono hcall ?_
    rintro answer d₁ ⟨hstep, hperform⟩
    obtain ⟨hheader, hrest⟩ := hheaders answer d₁ hperform
    have key : (d₁.engine.dropped = 0 → OwnPayload mine d₁) ∧
        (∃ c, Tap.ledger.moves d.engine.device d₁.engine.device c []) ∧
        ∀ b ∈ handedAt d.engine.device.taken.length (handed c answer),
          mine b.link b.position ∧ d₁.engine.device.taken[b.position]? = some b.byte := by
      rcases hstep with ⟨x, hx, hhands⟩ | ⟨hnone, hstale, -, hmoves⟩
      · obtain ⟨hown₁, hmine⟩ := hhands.attributed hown
        obtain ⟨c', hc'⟩ := hhands.moves
        exact ⟨hown₁, ⟨_, hc'⟩, by rw [hx]; exact hmine⟩
      · refine ⟨fun _ => hheader hstale, hmoves, ?_⟩
        rw [hnone]
        simp [handedAt]
    obtain ⟨hown₁, ⟨c₁, hm₁⟩, hmine⟩ := key
    rw [wp_bind]
    refine wp_mono (ih hown₁ hrest) ?_
    rintro bs d₂ ⟨⟨c₂, hm₂⟩, hbs⟩
    refine ⟨⟨_, Tap.ledger.trans hm₁ hm₂⟩, ?_⟩
    intro b hb
    rcases List.mem_append.1 hb with hb | hb
    · exact ⟨(hmine b hb).1, getElem?_of_moves hm₂ (hmine b hb).2⟩
    · exact hbs b hb

/-- Reads hand out the bytes from where the stream is. -/
theorem traced_hands {calls : List Inbound} (hcalls : ∀ call ∈ calls, call.isRead = true)
    (h : d.engine.dropped = 0 ∨ d.packet.isDrained = true) :
    wp True (Inbound.traced calls) (fun bs d' => ∃ x,
      bs = handedAt d.engine.device.taken.length (x.map (d.packet.link, ·)) ∧
      d.Hands Tap.ledger d' x) d := by
  induction calls generalizing d with
  | nil => exact ⟨[], rfl, .refl h⟩
  | cons c cs ih =>
    unfold Inbound.traced
    rw [wp_bind, wp_get, wp_bind]
    refine wp_mono (Driver.wp_perform_hands Tap.ledger (hcalls c List.mem_cons_self)) ?_
    rintro answer d₁ ⟨x, hx, h₁⟩
    have hcalls' : ∀ call ∈ cs, call.isRead = true :=
      fun call hc => hcalls call (List.mem_cons_of_mem _ hc)
    rw [wp_bind]
    refine wp_mono (ih hcalls' h₁.fresh_or_drained) ?_
    rintro bs d₂ ⟨y, hy, h₂⟩
    refine ⟨x ++ y, ?_, h₁.trans h₂⟩
    rw [hx, hy, List.map_append, handedAt_append, List.length_map]
    cases h₁ with
    | took _ moves packet =>
      have htaken : d₁.engine.device.taken = d.engine.device.taken ++ x := moves.device
      rw [packet, htaken, List.length_append]
    | ended _ _ _ drained =>
      rw [(h₂.of_drained drained).1]
      rfl

/-- **If what comes next is not all payload of the packet, reads hand out a foreign byte.** -/
theorem HandsOutForeign.of_not_ownPayload (h0 : d.engine.dropped = 0) (h : ¬ OwnPayload mine d) :
    HandsOutForeign mine d := by
  intro reads bs d' hreads hrun hlen
  obtain ⟨i, hi⟩ := not_forall.1 h
  obtain ⟨hlt, hnot⟩ := Classical.not_imp.1 hi
  obtain ⟨x, rfl, hhands⟩ := wp_of_ok (traced_hands hreads (.inl h0)) hrun
  have hx : x.length = d.packet.remaining.toNat := by simpa [handedAt] using hlen
  obtain ⟨c, hc⟩ := hhands.moves
  have htaken : d'.engine.device.taken = d.engine.device.taken ++ (x ++ c) := hc
  -- the byte at the place that is not payload of the link is one of those handed out
  refine ⟨⟨d.packet.link, d.engine.device.taken.length + i, x[i]⟩, ?_, rfl, hnot, ?_⟩
  · exact mem_handedAt.2 ⟨rfl, i, rfl, List.getElem?_eq_getElem (by omega)⟩
  · dsimp only
    rw [htaken, List.getElem?_append_right (by omega), Nat.add_sub_cancel_left,
      List.getElem?_append_left (by omega)]
    exact List.getElem?_eq_getElem _

theorem Inbound.traced_cons {c : Inbound} {cs : List Inbound} {answer : Answer}
    {d₁ d₂ : Driver (Tap σ)} {bs : List Handed} (hc : c.perform d = .ok answer d₁)
    (hcs : traced cs d₁ = .ok bs d₂) :
    traced (c :: cs) d =
      .ok (handedAt d.engine.device.taken.length (handed c answer) ++ bs) d₂ := by
  have hrun : wp False (traced (c :: cs)) (fun r d' => r =
      handedAt d.engine.device.taken.length (handed c answer) ++ bs ∧ d' = d₂) d := by
    unfold traced
    rw [wp_bind, wp_get, wp_bind, wp_iff_of_ok hc, wp_bind, wp_iff_of_ok hcs]
    exact ⟨rfl, rfl⟩
  obtain ⟨r, d', h, rfl, rfl⟩ := wp_false_iff.1 hrun
  exact h

/-- **A header that is not a true one makes reads hand out a foreign byte**: after the calls up to
it, the packet is not followed by its payload. -/
theorem exists_handsOutForeign {calls : List Inbound}
    (h : ¬ TrueHeaders mine calls d) :
    ∃ first bs d', first <+: calls ∧ Inbound.traced first d = .ok bs d' ∧
      HandsOutForeign mine d' := by
  induction calls generalizing d with
  | nil => exact absurd trivial h
  | cons c cs ih =>
    obtain ⟨answer, h⟩ := not_forall.1 h
    obtain ⟨d₁, h⟩ := not_forall.1 h
    obtain ⟨hperform, h⟩ := Classical.not_imp.1 h
    by_cases hheader : (d.packet.isDrained = true ∨ 0 < d.engine.dropped) → OwnPayload mine d₁
    · obtain ⟨first, bs, d₂, hfirst, htraced, hforeign⟩ := ih fun hrest => h ⟨hheader, hrest⟩
      exact ⟨c :: first, _, d₂, List.cons_prefix_cons.2 ⟨rfl, hfirst⟩,
        Inbound.traced_cons hperform htraced, hforeign⟩
    · obtain ⟨-, hnot⟩ := Classical.not_imp.1 hheader
      have hfresh : d₁.engine.dropped = 0 := by
        rcases wp_of_ok (Driver.wp_perform_any Tap.ledger) hperform with ⟨x, -, hhands⟩ | ⟨-, -, h0, -⟩
        · exact hhands.fresh_or_drained.resolve_right fun hd => hnot (.of_drained hd)
        · exact h0
      exact ⟨[c], _, d₁, List.cons_prefix_cons.2 ⟨rfl, List.nil_prefix⟩,
        Inbound.traced_cons hperform rfl, .of_not_ownPayload hfresh hnot⟩

/-- **A command makes up for the payload that it throws away, but not for payload that it reads.** A
command throws away what waits, then it reads its answer; the packet stays as it was. If anything
was thrown away, or if what follows the answer is payload of the packet, then every byte that is
handed out later is payload of the link it is handed to, as long as the headers that are read are
true ones. Otherwise, and after a header that is not a true one, reads that go through the packet
hand out a byte that is not payload of its link. -/
theorem command_attributes (mine : UInt8 → Nat → Prop) {cmd : Command} {d d' : Driver (Tap σ)}
    {r : Except Fault Unit} (hcmd : cmd.issue.run d = .ok r d') :
    ∃ thrown answer,
      d'.engine.device.taken = d.engine.device.taken ++ thrown ++ answer ∧
      d'.engine.dropped = d.engine.dropped + thrown.length ∧ d'.packet = d.packet ∧
      (r = .ok () → answer ≠ []) ∧
      ((0 < d'.engine.dropped ∨ ∀ i < d.packet.remaining.toNat,
          mine d.packet.link (d.engine.device.taken.length + answer.length + i)) →
        ∀ calls bs d'', TrueHeaders mine calls d' → Inbound.traced calls d' = .ok bs d'' →
          ∀ b ∈ bs, mine b.link b.position ∧
            d''.engine.device.taken[b.position]? = some b.byte) ∧
      (¬ (0 < d'.engine.dropped ∨ ∀ i < d.packet.remaining.toNat,
          mine d.packet.link (d.engine.device.taken.length + answer.length + i)) →
        HandsOutForeign mine d') ∧
      ∀ calls, ¬ TrueHeaders mine calls d' →
        ∃ first bs d₁, first <+: calls ∧ Inbound.traced first d' = .ok bs d₁ ∧
          HandsOutForeign mine d₁ := by
  have hissue : Attempt.wp True cmd.issue
      (fun _ d' => ∃ z t w, d.engine.Issues Tap.ledger d'.engine z t w ∧ d'.packet = d.packet ∧
        t ≠ [])
      (fun _ d' => ∃ z t w, d.engine.Issues Tap.ledger d'.engine z t w ∧ d'.packet = d.packet) d :=
    Command.wp_issue Tap.ledger (fun z t w _ h hp ht => ⟨z, t, w, h, hp, ht⟩)
      fun _ z t w _ h hp => ⟨z, t, w, h, hp⟩
  obtain ⟨z, t, w, hissues, hp, ht⟩ : ∃ z t w, d.engine.Issues Tap.ledger d'.engine z t w ∧
      d'.packet = d.packet ∧ (r = .ok () → t ≠ []) := by
    have h := wp_of_ok hissue hcmd
    cases r with
    | ok _ =>
      obtain ⟨z, t, w, h, hp, ht⟩ := h
      exact ⟨z, t, w, h, hp, fun _ => ht⟩
    | error f =>
      obtain ⟨z, t, w, h, hp⟩ := h
      exact ⟨z, t, w, h, hp, fun hr => absurd hr (by simp)⟩
  have htaken : d'.engine.device.taken = d.engine.device.taken ++ z ++ t := by
    rw [List.append_assoc]
    exact hissues.device
  -- a packet that is still believed in begins right behind the answer
  have hplace : d'.engine.dropped = 0 → (OwnPayload mine d' ↔ ∀ i < d.packet.remaining.toNat,
      mine d.packet.link (d.engine.device.taken.length + t.length + i)) := by
    intro h0
    have hz : z.length = 0 := by
      have := hissues.dropped
      omega
    unfold OwnPayload
    rw [hp, htaken, List.length_append, List.length_append, hz, Nat.add_zero]
  refine ⟨z, t, htaken, hissues.dropped, hp, ht, ?_, ?_, ?_⟩
  · intro hgood calls bs d'' hheaders hrun
    have hown : d'.engine.dropped = 0 → OwnPayload mine d' := by
      intro h0
      exact (hplace h0).2 (hgood.resolve_left (by omega))
    exact (wp_of_ok (OwnPayload.traced hown hheaders) hrun).2
  · intro hbad
    obtain ⟨hkept, hforeign⟩ := not_or.1 hbad
    have h0 : d'.engine.dropped = 0 := by omega
    exact .of_not_ownPayload h0 fun hown => hforeign ((hplace h0).1 hown)
  · intro calls hheaders
    exact exists_handsOutForeign hheaders

/-- A packet with four bytes to come. The module sends them when it answers a command, and the next
frame after that. -/
def latePayload : Driver (Tap Bench) where
  engine := { device := { device := {
    replies := [[(0, utf8 "data\r\nOK\r\n"), (50, utf8 "+IPD,0,2:hi")]] } } }
  packet := { link := 0, remaining := 4 }

/-- The payload in that stream. -/
def latePayloadOf (link : UInt8) (position : Nat) : Prop :=
  link = 0 ∧ (position < 4 ∨ 19 ≤ position ∧ position < 21)

theorem command_reads_latePayload :
    ∃ d' bs d'', (Command.requestOk ["AT"] 1000).issue.run latePayload = .ok (.ok ()) d' ∧
      Inbound.traced [.bytes 0 4] d' = .ok bs d'' ∧
      ∃ b ∈ bs, b.link = 0 ∧ ¬ latePayloadOf b.link b.position := by
  have hval : value? (do
      let r ← (Command.requestOk ["AT"] 1000).issue.run
      let d ← get
      let bs ← Inbound.traced [.bytes 0 4]
      return (r, d.engine.dropped, d.engine.device.taken, bs.length)) latePayload =
      some (.ok (), 0, utf8 "data\r\nOK\r\n", 4) := by
    decide +kernel
  obtain ⟨r, d', hcmd, hrest⟩ := value?_bind_eq_some.1 hval
  obtain ⟨d₁, d₂, hget, hread⟩ := value?_bind_eq_some.1 hrest
  cases hget
  obtain ⟨bs, d'', htraced, hvalues⟩ := value?_bind_eq_some.1 hread
  obtain ⟨rfl, hdropped, htaken', hlen⟩ : r = .ok () ∧ d'.engine.dropped = 0 ∧
      d'.engine.device.taken = utf8 "data\r\nOK\r\n" ∧ bs.length = 4 := by
    simpa [value?, pure, EStateM.pure] using hvalues
  obtain ⟨thrown, answer, htaken, hthrown, hpacket, -, -, hforeign, -⟩ :=
    command_attributes latePayloadOf hcmd
  have hnil : thrown = [] := by
    have hzero : 0 + thrown.length = 0 := hthrown.symm.trans hdropped
    exact List.length_eq_zero_iff.1 (by omega)
  have hanswer : answer = utf8 "data\r\nOK\r\n" := by
    rw [htaken, hnil] at htaken'
    exact htaken'
  have hbad : ¬ (0 < d'.engine.dropped ∨ ∀ i < 4, latePayloadOf 0 (0 + answer.length + i)) := by
    rw [hdropped, hanswer]
    rintro (h | h)
    · exact absurd h (Nat.lt_irrefl 0)
    · exact absurd (h 0 (by decide)) (by unfold latePayloadOf; decide)
  have hall : bs.length = d'.packet.remaining.toNat := by
    rw [hlen, hpacket]
    rfl
  obtain ⟨b, hb, hlink, hnot, -⟩ := hforeign hbad _ bs d'' (by simp [Inbound.isRead]) htraced hall
  rw [hpacket] at hlink
  exact ⟨d', bs, d'', hcmd, htraced, b, hb, hlink, hnot⟩

/-- **The driver does not notice that it read payload with an answer.** Four bytes are announced; they
come together with the answer to a command, and the plus sign that begins the next header is
handed out as the first of them. -/
theorem plus_handed_out :
    value? (do
      let n ← Driver.available (some 0)
      let answer ← (Command.requestOk ["AT"] 1000).issue.run
      modify fun d => { d with
        engine.device := d.engine.device.apply (.inject [(0, utf8 "+IPD,0,2:hi")]) }
      let log ← Inbound.session [.byte 0 false]
      return (n, answer, delivered log))
      ({ engine := { device := {
        rx := utf8 "+IPD,0,4:"
        replies := [[(0, utf8 "data\r\nOK\r\n")]] } } } : Driver Bench) =
      some (4, .ok (), [(0, ascii '+')]) := by
  decide +kernel

end EspWifi
