import EspWifi.Proofs.Modem.Frame
import EspWifi.Proofs.Modem.Receiving

/-!
# The inbox

What the calls for inbound data answer when every frame of the module waits in the stream. The inbox
is a machine on frames: it knows nothing of bytes on the wire, of clocks or of timeouts.

* `Inbox.step`, `Inbox.transcript`: the answers of an inbox.
* `Inbox.owed_run`: **what is owed is what is handed out, and what is still owed after it.**
* `Inbox.peeked`: a look shows the byte that is handed out next.
-/

namespace EspWifi

/-- The payload of a frame, each byte with the link of the frame. -/
def Frame.labelled (f : Frame) : List (UInt8 × UInt8) := f.payload.map (f.link.val.toUInt8, ·)

/-- The frames of the module, and how far they have been read. -/
structure Inbox where
  /-- Frames whose header was read, in order. -/
  parsed : List Frame := []
  /-- Frames whose header was not read yet. -/
  waiting : List Frame
  /-- How many payload bytes of the last frame that was parsed were handed out. -/
  taken : Nat := 0
  /-- The notice that its link was closed is no longer in the stream. -/
  noticed : Bool := false

namespace Inbox

variable (s : Inbox)

/-- The last frame whose header was read. -/
def current : Option Frame := s.parsed.getLast?

/-- Its payload that was not handed out yet. -/
def unread : Bytes := s.current.elim [] fun f => f.payload.drop s.taken

/-- **Its header, with the number of its undelivered bytes.** -/
def packet : Packet := s.current.elim {} fun f => f.packet s.unread.length

/-- The notice that its link was closed follows its payload. -/
def closing : Bool := s.current.any (·.closed) && !s.noticed

/-- What waits for a link. -/
def pending (link : Option UInt8) : UInt16 :=
  if s.packet.isFor link then s.packet.remaining else 0

/-- Go on to the next frame, or throw away what is left behind the last one. -/
def next : Inbox :=
  match s.waiting with
  | [] => { s with noticed := true }
  | f :: fs => { parsed := s.parsed ++ [f], waiting := fs }

/-- **The answer to a call**, and the inbox after it. -/
def step : Inbound → Answer × Inbox
  | .available link =>
    let s := if s.unread.isEmpty then s.next else s
    (.pending (s.pending link), s)
  | .byte link peek =>
    match s.unread with
    | [] => (.byte (.error .invalidLink), s)
    | x :: rest =>
      if link ≠ s.packet.link then (.byte (.error .invalidLink), s)
      else if peek then (.byte (.ok ⟨x, false⟩), s)
      else
        let closed := rest.isEmpty && s.closing
        (.byte (.ok ⟨x, closed⟩),
          { s with taken := s.taken + 1, noticed := s.noticed || closed })
  | .bytes link n =>
    if link ≠ s.packet.link then (.bytes (.error .invalidLink), s)
    else (.bytes (.ok (s.unread.take n)), { s with taken := s.taken + min n s.unread.length })

/-- The calls of a run with their answers. -/
def transcript (s : Inbox) : List Inbound → List (Inbound × Answer)
  | [] => []
  | c :: cs => (c, (s.step c).1) :: transcript (s.step c).2 cs

/-- The inbox after a run. -/
def run (s : Inbox) (cs : List Inbound) : Inbox := cs.foldl (fun s c => (s.step c).2) s

/-- All payload that is still to be handed out, in order. -/
def owed : List (UInt8 × UInt8) :=
  s.unread.map (s.packet.link, ·) ++ s.waiting.flatMap Frame.labelled

variable {s}

/-! ### What the parts of an inbox are -/

theorem length_unread_lt : s.unread.length < 65536 := by
  unfold unread
  cases s.current with
  | none => exact Nat.zero_lt_succ _
  | some f =>
    have := f.payload_lt
    simp only [Option.elim_some, List.length_drop]
    omega

/-- The unread bytes are an end of the payload. -/
theorem unread_suffix {f : Frame} (h : s.current = some f) : s.unread <:+ f.payload := by
  unfold unread
  rw [h]
  exact List.drop_suffix _ _

@[simp] theorem remaining_packet : s.packet.remaining = s.unread.length.toUInt16 := by
  cases h : s.current with
  | none => simp [packet, unread, h]
  | some f => simp [packet, h, Frame.packet]

theorem toNat_remaining_packet : s.packet.remaining.toNat = s.unread.length := by
  rw [remaining_packet, Nat.toUInt16, UInt16.toNat_ofNat', Nat.mod_eq_of_lt length_unread_lt]

/-- The packet is drained when nothing of it is unread. -/
theorem isDrained_packet : s.packet.isDrained = s.unread.isEmpty := by
  rw [Bool.eq_iff_iff, Packet.isDrained_iff, toNat_remaining_packet, List.isEmpty_iff,
    List.length_eq_zero_iff]

theorem current_next {f : Frame} {fs : List Frame} (h : s.waiting = f :: fs) :
    s.next.current = some f := by
  simp [next, h, current]

theorem unread_next {f : Frame} {fs : List Frame} (h : s.waiting = f :: fs) :
    s.next.unread = f.payload := by
  unfold unread
  rw [current_next h]
  simp [next, h]

theorem packet_next {f : Frame} {fs : List Frame} (h : s.waiting = f :: fs) :
    s.next.packet = f.packet f.payload.length := by
  unfold packet
  rw [current_next h, unread_next h]
  rfl

/-- Handing out `n` bytes leaves the ones after them. -/
theorem unread_take (n : Nat) (noticed : Bool) :
    { s with taken := s.taken + n, noticed := noticed }.unread = s.unread.drop n := by
  simp only [unread, current]
  cases s.parsed.getLast? with
  | none => simp
  | some f => simp

/-- The header of a packet is not affected by what is handed out. -/
theorem packet_take (n : Nat) (noticed : Bool) :
    { s with taken := s.taken + n, noticed := noticed }.packet =
      { s.packet with remaining := (s.unread.drop n).length.toUInt16 } := by
  have hu := unread_take (s := s) n noticed
  have hc : { s with taken := s.taken + n, noticed := noticed }.current = s.current := rfl
  unfold packet
  rw [hu, hc]
  cases h : s.current with
  | none => simp [unread, h]
  | some f => rfl

/-! ### What one call does -/

theorem step_byte_invalid {link : UInt8} {peek : Bool}
    (h : link ≠ s.packet.link ∨ s.unread = []) :
    s.step (.byte link peek) = (.byte (.error .invalidLink), s) := by
  cases hu : s.unread with
  | nil => simp [step, hu]
  | cons x rest =>
    have hl : link ≠ s.packet.link := h.resolve_right (by simp [hu])
    simp [step, hu, hl]

theorem step_peek {x : UInt8} {rest : Bytes} (hu : s.unread = x :: rest) :
    s.step (.byte s.packet.link true) = (.byte (.ok ⟨x, false⟩), s) := by
  simp [step, hu]

theorem step_read {x : UInt8} {rest : Bytes} (hu : s.unread = x :: rest) :
    s.step (.byte s.packet.link false) =
      (.byte (.ok ⟨x, rest.isEmpty && s.closing⟩),
        { s with taken := s.taken + 1, noticed := s.noticed || (rest.isEmpty && s.closing) }) := by
  simp [step, hu]

/-- The headers that were read and those that were not are all there is. -/
theorem frames_step (c : Inbound) :
    (s.step c).2.parsed ++ (s.step c).2.waiting = s.parsed ++ s.waiting := by
  cases c with
  | available link =>
    simp only [step]
    split
    · unfold next
      split
      · rfl
      · rename_i h
        simp [h]
    · rfl
  | byte link peek =>
    simp only [step]
    split
    · rfl
    · split
      · rfl
      · split <;> rfl
  | bytes link n =>
    simp only [step]
    split <;> rfl

theorem owed_next (h : s.unread = []) : s.next.owed = s.owed := by
  cases hw : s.waiting with
  | nil =>
    have hu : s.next.unread = s.unread := by simp [next, hw, unread, current]
    unfold owed
    rw [hu, h, List.map_nil, List.map_nil]
    simp [next, hw]
  | cons f fs =>
    unfold owed
    rw [unread_next hw, packet_next hw, h, hw]
    simp [next, hw, Frame.labelled, Frame.packet]

theorem owed_take (n : Nat) (noticed : Bool) :
    s.owed = (s.unread.take n).map (s.packet.link, ·) ++
      { s with taken := s.taken + n, noticed := noticed }.owed := by
  unfold owed
  rw [unread_take, packet_take, ← List.append_assoc, ← List.map_append, List.take_append_drop]

/-- **What is owed is what a call hands out, and what is owed after it.** -/
theorem owed_step (c : Inbound) : s.owed = handed c (s.step c).1 ++ (s.step c).2.owed := by
  cases c with
  | available link =>
    simp only [step, handed, List.nil_append]
    split
    · rename_i h
      exact (owed_next (List.isEmpty_iff.1 h)).symm
    · rfl
  | byte link peek =>
    cases hu : s.unread with
    | nil =>
      rw [step_byte_invalid (.inr hu)]
      cases peek <;> rfl
    | cons x rest =>
      by_cases hl : link = s.packet.link
      case neg =>
        rw [step_byte_invalid (.inl hl)]
        cases peek <;> rfl
      subst hl
      cases peek with
      | true =>
        rw [step_peek hu]
        rfl
      | false =>
        have := owed_take (s := s) 1 (s.noticed || (rest.isEmpty && s.closing))
        rw [hu] at this
        rw [step_read hu]
        exact this
  | bytes link n =>
    by_cases hl : link = s.packet.link
    · have := owed_take (s := s) (min n s.unread.length) s.noticed
      rw [← List.take_eq_take_min] at this
      simpa [step, hl, handed] using this
    · simp [step, hl, handed]

/-! ### What a run does -/

theorem frames_run (cs : List Inbound) :
    (s.run cs).parsed ++ (s.run cs).waiting = s.parsed ++ s.waiting := by
  induction cs generalizing s with
  | nil => rfl
  | cons c cs ih => exact ih.trans (frames_step c)

/-- **What is owed is what a run hands out, and what is owed after it.** -/
theorem owed_run (cs : List Inbound) :
    s.owed = delivered (s.transcript cs) ++ (s.run cs).owed := by
  induction cs generalizing s with
  | nil => rfl
  | cons c cs ih =>
    calc s.owed = handed c (s.step c).1 ++ (s.step c).2.owed := owed_step c
      _ = handed c (s.step c).1 ++
          (delivered ((s.step c).2.transcript cs) ++ ((s.step c).2.run cs).owed) := by rw [← ih]
      _ = _ := by simp [delivered, transcript, run]

theorem owed_start (frames : List Frame) :
    ({ waiting := frames } : Inbox).owed = frames.flatMap Frame.labelled := rfl

/-- **What was handed out is the payload of the frames that were parsed**, but for what is unread of
the last of them. -/
theorem delivered_run (frames : List Frame) (cs : List Inbound) :
    let s := ({ waiting := frames } : Inbox).run cs
    delivered (({ waiting := frames } : Inbox).transcript cs) ++ s.unread.map (s.packet.link, ·) =
      s.parsed.flatMap Frame.labelled := by
  intro s
  have howed := owed_run (s := { waiting := frames }) cs
  have hframes : s.parsed ++ s.waiting = frames := frames_run (s := { waiting := frames }) cs
  have hparsed : frames.flatMap Frame.labelled =
      s.parsed.flatMap Frame.labelled ++ s.waiting.flatMap Frame.labelled := by
    rw [← List.flatMap_append, hframes]
  -- both sides go on with the payload of the frames that wait
  rw [owed_start, hparsed, show (run _ cs).owed = s.owed from rfl, owed, ← List.append_assoc]
    at howed
  exact (List.append_cancel_right howed).symm

/-- A look that shows a byte shows the first one that is owed. -/
theorem owed_of_peek {link : UInt8} {r : Driver.Received}
    (h : (s.step (.byte link true)).1 = .byte (.ok r)) :
    (s.step (.byte link true)).2 = s ∧ s.owed.head? = some (link, r.byte) := by
  cases hu : s.unread with
  | nil =>
    rw [step_byte_invalid (.inr hu)] at h
    simp at h
  | cons x rest =>
    by_cases hl : link = s.packet.link
    case neg =>
      rw [step_byte_invalid (.inl hl)] at h
      simp at h
    subst hl
    rw [step_peek hu] at h ⊢
    cases h
    exact ⟨rfl, by simp [owed, hu]⟩

/-- **A look shows the byte that is handed out next**, whatever is called in between. -/
theorem peeked {cs : List Inbound} {before after : List (Inbound × Answer)} {link : UInt8}
    {r : Driver.Received}
    (h : s.transcript cs = before ++ (.byte link true, .byte (.ok r)) :: after) :
    ∀ x ∈ (delivered after).head?, x = (link, r.byte) := by
  induction cs generalizing s before with
  | nil => simp [transcript] at h
  | cons c cs ih =>
    cases before with
    | cons entry before =>
      obtain ⟨-, hrest⟩ := List.cons.inj h
      exact ih hrest
    | nil =>
      obtain ⟨hc, hrest⟩ := List.cons.inj h
      -- the first byte that is owed is the first one of the calls to come
      obtain ⟨rfl, ha⟩ := Prod.mk.inj hc
      obtain ⟨hs, howed⟩ := owed_of_peek ha
      rw [hs] at hrest
      subst hrest
      intro x hx
      rw [owed_run cs] at howed
      rw [List.head?_append, Option.mem_def.1 hx] at howed
      exact Option.some.inj howed

end Inbox

end EspWifi
