import EspWifi.Proofs.At.Spelling
import EspWifi.Proofs.Modem.Frame

/-!
# Headers

Which bytes are taken for the header of a packet. The numbers of a header are looked for one after the
other, each of them behind whatever cannot start a number, so there are more bytes that pass for a header
than the module ever sends.

* `Reads`: what a reader makes of the bytes that wait; `Reads.bind`: one reader after the other.
* `Header`: bytes that pass for a header, number by number; `Header.Documented`: those that have the
  form of a header.
* `Packet.read_fields`: **the header that was written is the header that is read.**
* `Packet.read_accepts`: **the bytes that are taken for a header**, and what is made of them.
-/

namespace EspWifi

open Run Numeral

variable {α β : Type}

/-! ### Readers -/

/-- **What a reader makes of the bytes that wait.** It returns a value `a` and leaves `rest` exactly if
`G w a rest`, and none if there are no such `a` and `rest`. It always returns. -/
def Reads (x : OptionT (Run (Engine Bench)) α) (G : Bytes → α → Bytes → Prop) : Prop :=
  ∀ (e : Engine Bench) (w : Bytes), e.device.Holds w → wp False x.run (fun r e' =>
    ∃ b left, e' = { e with device := b } ∧ b.Holds left ∧
      ∀ a rest, G w a rest ↔ r = some a ∧ rest = left) e

namespace Reads

variable {x : OptionT (Run (Engine Bench)) α} {G G' : Bytes → α → Bytes → Prop}

theorem congr (h : Reads x G) (hG : ∀ w a rest, G' w a rest ↔ G w a rest) : Reads x G' := by
  intro e w hw
  refine wp_mono (h e w hw) ?_
  rintro r e' ⟨b, left, he, hb, hr⟩
  exact ⟨b, left, he, hb, fun a rest => (hG w a rest).trans (hr a rest)⟩

theorem pure (a : α) : Reads (pure a : OptionT (Run (Engine Bench)) α)
    fun w a' rest => a' = a ∧ rest = w :=
  fun e w hw => ⟨e.device, w, rfl, hw, fun _ _ => by rw [Option.some_inj, eq_comm]⟩

theorem failure : Reads (failure : OptionT (Run (Engine Bench)) α) fun _ _ _ => False :=
  fun e w hw => ⟨e.device, w, rfl, hw, fun _ _ => by simp⟩

/-- **One reader after the other.** The second one finds what the first one leaves. -/
theorem bind {f : α → OptionT (Run (Engine Bench)) β} {H : α → Bytes → β → Bytes → Prop}
    (h : Reads x G) (hf : ∀ a, Reads (f a) (H a)) :
    Reads (x >>= f) fun w c rest => ∃ a mid, G w a mid ∧ H a mid c rest := by
  intro e w hw
  rw [wp_run_bind]
  refine wp_mono (h e w hw) ?_
  rintro r _ ⟨b, left, rfl, hb, hr⟩
  cases r with
  | none =>
    refine ⟨b, left, rfl, hb, fun c rest => ?_⟩
    constructor
    · rintro ⟨a, mid, hG, -⟩
      cases ((hr a mid).1 hG).1
    · rintro ⟨⟨⟩, -⟩
  | some a =>
    refine wp_mono (hf a { e with device := b } left hb) ?_
    rintro r _ ⟨b', left', rfl, hb', hr'⟩
    refine ⟨b', left', rfl, hb', fun c rest => ?_⟩
    rw [← hr']
    constructor
    · rintro ⟨a', mid, hG, hH⟩
      obtain ⟨ha, rfl⟩ := (hr a' mid).1 hG
      obtain rfl := Option.some.inj ha
      exact hH
    · exact fun hH => ⟨a, left, (hr a left).2 ⟨rfl, rfl⟩, hH⟩

theorem ite {c : Prop} [Decidable c] {x' : OptionT (Run (Engine Bench)) α} (h : Reads x G)
    (h' : Reads x' G') :
    Reads (if c then x else x') fun w a rest => if c then G w a rest else G' w a rest := by
  split
  · exact h
  · exact h'

/-- A reader may look at its timeouts. -/
theorem fieldTimeout_bind {f : UInt32 → OptionT (Run (Engine Bench)) α} (hf : ∀ t, Reads (f t) G) :
    Reads (OptionT.lift Engine.fieldTimeout >>= f) G := by
  intro e w hw
  rw [wp_run_bind, wp_run_lift]
  exact hf _ e w hw

theorem awaitByte (timeout : UInt32) : Reads (OptionT.mk (Engine.awaitByte timeout))
    fun w b rest => w = b :: rest := by
  intro e w hw
  rw [wp_run_mk]
  refine Engine.wp_awaitByte hw fun b hb => ⟨b, w.tail, rfl, hb, fun a rest => ?_⟩
  cases w with
  | nil => simp
  | cons x w => simp [eq_comm]

theorem awaitPeek (timeout : UInt32) : Reads (OptionT.mk (Engine.awaitPeek timeout))
    fun w b rest => w.head? = some b ∧ rest = w := by
  intro e w hw
  rw [wp_run_mk]
  exact Engine.wp_awaitPeek hw fun b hb => ⟨b, w, rfl, hb, fun a rest => Iff.rfl⟩

theorem readInt : Reads (OptionT.mk Engine.readInt) fun w i rest => parse w = (some i, rest) := by
  intro e w hw
  rw [wp_run_mk]
  refine Engine.wp_readInt hw fun b hb => ⟨b, _, rfl, hb, fun i rest => ?_⟩
  show parse w = (some i, rest) ↔ _
  rw [Prod.ext_iff, eq_comm (b := rest)]

/-- A value that is made of one that was read, or none. -/
theorem filterMap (h : Reads x G) (f : α → Option β) :
    Reads (do let a ← x; OptionT.mk (Pure.pure (f a))) fun w c rest =>
      ∃ a, G w a rest ∧ f a = some c := by
  have hf (a : α) : Reads (OptionT.mk (Pure.pure (f a)) : OptionT (Run (Engine Bench)) β)
      fun w c rest => f a = some c ∧ rest = w :=
    fun e w hw => ⟨e.device, w, rfl, hw, fun _ _ => Iff.rfl⟩
  refine (h.bind hf).congr fun w c rest => ?_
  constructor
  · rintro ⟨a, hG, hc⟩
    exact ⟨a, rest, hG, hc, rfl⟩
  · rintro ⟨a, mid, hG, hc, rfl⟩
    exact ⟨a, hG, hc⟩

end Reads

/-! ### Headers -/

/-- The numbers that name a sender: the parts of its address, and its port. -/
structure SenderTokens where
  a : Token
  b : Token
  c : Token
  d : Token
  port : Token

namespace SenderTokens

def all (s : SenderTokens) : List Token := [s.a, s.b, s.c, s.d, s.port]

/-- The sender, if the numbers are in range. -/
def sender? (s : SenderTokens) : Option (Ipv4 × UInt16) := do
  let a ← Packet.byte? s.a.number.value
  let b ← Packet.byte? s.b.number.value
  let c ← Packet.byte? s.c.number.value
  let d ← Packet.byte? s.d.number.value
  let port ← Packet.word? s.port.number.value
  return (⟨a, b, c, d⟩, port)

theorem all_inj {s s' : SenderTokens} (h : s.all = s'.all) : s = s' := by
  cases s
  cases s'
  simpa [all] using h

/-- A sender begins where the first of its numbers does. -/
theorem head?_row (s : SenderTokens) (w : Bytes) :
    (Token.row s.all ++ w).head? = s.a.bytes.head? := by
  rw [all, Token.row_cons, List.append_assoc, List.head?_append_of_ne_nil _ s.a.bytes_ne_nil]

end SenderTokens

namespace Packet

/-- A number that is read must be in range: `f` makes something of it. -/
theorem reads_number {f : Int → Option α} (hf : ∀ i a, f i = some a → int32Min ≤ i ∧ i ≤ int32Max) :
    Reads (do let i ← OptionT.mk Engine.readInt; OptionT.mk (pure (f i))) fun w a rest =>
      ∃ t : Token, w = t.bytes ++ rest ∧ (∀ b ∈ rest.head?, isDigitByte b = false) ∧
        f t.number.value = some a := by
  refine (Reads.readInt.filterMap f).congr fun w a rest => ?_
  constructor
  · rintro ⟨t, hw, hrest, hvalue⟩
    obtain ⟨hmin, hmax⟩ := hf _ _ hvalue
    exact ⟨_, parse_eq_some_iff.2 ⟨t, hw, hrest, rfl, hmin, hmax⟩, hvalue⟩
  · rintro ⟨i, hparse, hi⟩
    obtain ⟨t, hw, hrest, rfl, -⟩ := parse_eq_some_iff.1 hparse
    exact ⟨t, hw, hrest, hi⟩

theorem byte?_toNat (x : UInt8) : byte? (x.toNat : Int) = some x := by
  have hx := x.toNat_lt
  have hcast : x.toNat.toUInt8 = x := UInt8.ofNat_toNat
  unfold byte?
  rw [if_pos ⟨by omega, by omega⟩, Int.toNat_natCast, hcast]

theorem word?_toNat (x : UInt16) : word? (x.toNat : Int) = some x := by
  have hx := x.toNat_lt
  have hcast : x.toNat.toUInt16 = x := UInt16.ofNat_toNat
  unfold word?
  rw [if_pos ⟨by omega, by omega⟩, Int.toNat_natCast, hcast]

theorem reads_byte : Reads readByte fun w a rest => ∃ t : Token, w = t.bytes ++ rest ∧
    (∀ b ∈ rest.head?, isDigitByte b = false) ∧ byte? t.number.value = some a := by
  refine reads_number fun i a h => ?_
  unfold byte? at h
  split at h
  · unfold int32Min int32Max
    omega
  · cases h

theorem reads_word : Reads readWord fun w a rest => ∃ t : Token, w = t.bytes ++ rest ∧
    (∀ b ∈ rest.head?, isDigitByte b = false) ∧ word? t.number.value = some a := by
  refine reads_number fun i a h => ?_
  unfold word? at h
  split at h
  · unfold int32Min int32Max
    omega
  · cases h

theorem reads_sender : Reads readSender fun w sender rest => ∃ s : SenderTokens,
    w = Token.row s.all ++ rest ∧ Token.Parted s.all rest ∧ s.sender? = some sender := by
  have h := reads_byte.bind fun a => reads_byte.bind fun b => reads_byte.bind fun c =>
    reads_byte.bind fun d => reads_word.bind fun port =>
      Reads.pure ((⟨a, b, c, d⟩, port) : Ipv4 × UInt16)
  refine Reads.congr h fun w sender rest => ?_
  simp only [SenderTokens.sender?, bind, Option.bind_eq_some_iff]
  constructor
  · rintro ⟨⟨a, b, c, d, port⟩, hw, ⟨ha, hb, hc, hd, hport, -⟩, a', ha', b', hb', c', hc', d', hd',
      port', hport', hsender⟩
    refine ⟨a', Token.row [b, c, d, port] ++ rest, ⟨a, ?_, ha, ha'⟩,
      b', Token.row [c, d, port] ++ rest, ⟨b, ?_, hb, hb'⟩,
      c', Token.row [d, port] ++ rest, ⟨c, ?_, hc, hc'⟩,
      d', Token.row [port] ++ rest, ⟨d, ?_, hd, hd'⟩,
      port', rest, ⟨port, ?_, hport, hport'⟩, ?_, rfl⟩
    · rw [hw]
      simp [SenderTokens.all, Token.row_cons]
    · simp [Token.row_cons]
    · simp [Token.row_cons]
    · simp [Token.row_cons]
    · simp [Token.row]
    · exact (Option.some.inj hsender).symm
  · rintro ⟨a', _, ⟨a, rfl, ha, ha'⟩, b', _, ⟨b, rfl, hb, hb'⟩, c', _, ⟨c, rfl, hc, hc'⟩, d', _,
      ⟨d, rfl, hd, hd'⟩, port', _, ⟨port, rfl, hport, hport'⟩, rfl, rfl⟩
    refine ⟨⟨a, b, c, d, port⟩, ?_, ⟨?_, ?_, ?_, ?_, hport, trivial⟩, a', ha', b', hb', c', hc', d', hd',
      port', hport', rfl⟩
    · simp [SenderTokens.all, Token.row]
    · simpa [Token.row] using ha
    · simpa [Token.row] using hb
    · simpa [Token.row] using hc
    · simpa [Token.row] using hd

/-- The colon that ends a header. -/
theorem reads_colon (timeout : UInt32) (p : Packet) :
    Reads (do
      let stop ← OptionT.mk (Engine.awaitByte timeout)
      if stop = ascii ':' then return p else failure) fun w p' rest =>
        p' = p ∧ w = ascii ':' :: rest := by
  have decided (b : UInt8) := (Reads.pure p).ite (c := b = ascii ':') .failure
  refine ((Reads.awaitByte timeout).bind decided).congr fun w p' rest => ?_
  constructor
  · rintro ⟨rfl, rfl⟩
    exact ⟨ascii ':', rest, rfl, rfl, rfl⟩
  · rintro ⟨b, mid, rfl, h⟩
    split at h
    · rename_i hb
      obtain ⟨rfl, rfl⟩ := h
      exact ⟨rfl, by rw [hb]⟩
    · cases h

end Packet

/-- The numbers of a header. -/
structure HeaderTokens where
  link : Token
  length : Token
  sender : Option SenderTokens

namespace HeaderTokens

/-- The packet, if its link and its length are known. -/
def announced? (link : UInt8) (remaining : UInt16) : Option SenderTokens → Option Packet
  | none => some { link, remaining }
  | some s => s.sender?.map fun sender =>
    { link, remaining, remoteIp := some sender.1, remotePort := sender.2 }

/-- The numbers after the length. -/
def others (h : HeaderTokens) : List Token := h.sender.elim [] SenderTokens.all

def all (h : HeaderTokens) : List Token := h.link :: h.length :: h.others

theorem row_all (h : HeaderTokens) (w : Bytes) :
    Token.row h.all ++ w = h.link.bytes ++ (h.length.bytes ++ (Token.row h.others ++ w)) := by
  rw [all, Token.row_cons, Token.row_cons, List.append_assoc, List.append_assoc]

/-- The packet that they announce, if they are in range. -/
def packet? (h : HeaderTokens) : Option Packet := do
  let link ← Packet.byte? h.link.number.value
  let remaining ← Packet.word? h.length.number.value
  announced? link remaining h.sender

end HeaderTokens

/-- **Bytes that pass for a header**: two numbers, or seven if there is a comma right behind the second
one, and all of them in range. -/
structure Header extends HeaderTokens where
  packet : Packet
  packet?_eq : toHeaderTokens.packet? = some packet
  parted : Token.Parted toHeaderTokens.all [ascii ':']
  comma : ∀ s ∈ sender, s.a.bytes.head? = some (ascii ',')

namespace Header

/-- The bytes of a header, with the colon that ends it. -/
def bytes (h : Header) : Bytes := Token.row h.all ++ [ascii ':']

theorem bytes_append (h : Header) (rest : Bytes) :
    h.bytes ++ rest = Token.row h.all ++ ascii ':' :: rest := List.append_assoc _ _ _

/-- What stands between the numbers of a header of the documented form. -/
def separators : List Bytes :=
  [[], [ascii ','], [ascii ',', ascii '"'], [ascii '.'], [ascii '.'], [ascii '.'], [ascii '"', ascii ',']]

/-- **A header of the documented form**: the separators stand between its numbers and nothing else, and
no number has a sign. -/
def Documented (h : Header) : Prop :=
  h.all.map Token.gap <+: separators ∧ ∀ t ∈ h.all, t.number.negative = false

end Header

namespace Packet

/-- What comes after the length: the sender if there is a comma, and the colon. -/
theorem reads_ending (timeout : UInt32) (link : UInt8) (remaining : UInt16) :
    Reads (do
      let next ← OptionT.mk (Engine.awaitPeek timeout)
      let packet ←
        if next = ascii ',' then do
          let (ip, port) ← readSender
          pure { link, remaining, remoteIp := some ip, remotePort := port : Packet }
        else pure { link, remaining : Packet }
      let stop ← OptionT.mk (Engine.awaitByte timeout)
      if stop = ascii ':' then return packet else failure) fun w p rest =>
        ∃ sender : Option SenderTokens,
          w = Token.row (sender.elim [] SenderTokens.all) ++ ascii ':' :: rest ∧
          Token.Parted (sender.elim [] SenderTokens.all) (ascii ':' :: rest) ∧
          (∀ s ∈ sender, s.a.bytes.head? = some (ascii ',')) ∧
          HeaderTokens.announced? link remaining sender = some p := by
  have named := reads_sender.bind fun sender => (Reads.pure
    ({ link, remaining, remoteIp := some sender.1, remotePort := sender.2 } : Packet)).bind
      (reads_colon timeout)
  have unnamed := (Reads.pure ({ link, remaining } : Packet)).bind (reads_colon timeout)
  have decided (next : UInt8) := named.ite (c := next = ascii ',') unnamed
  refine Reads.congr ((Reads.awaitPeek timeout).bind decided) fun w p rest => ?_
  have hcolon : ascii ':' ≠ ascii ',' := by decide
  constructor
  · rintro ⟨sender, rfl, hparted, hcomma, hp⟩
    cases sender with
    | none =>
      refine ⟨ascii ':', _, ⟨rfl, rfl⟩, ?_⟩
      rw [if_neg hcolon]
      exact ⟨_, _, ⟨rfl, rfl⟩, (Option.some.inj hp).symm, rfl⟩
    | some s =>
      obtain ⟨v, hv, rfl⟩ := Option.map_eq_some_iff.1 hp
      refine ⟨ascii ',', _, ⟨?_, rfl⟩, ?_⟩
      · exact (s.head?_row _).trans (hcomma s rfl)
      · rw [if_pos rfl]
        exact ⟨v, _, ⟨s, rfl, hparted, hv⟩, _, _, ⟨rfl, rfl⟩, rfl, rfl⟩
  · rintro ⟨next, _, ⟨hnext, rfl⟩, h⟩
    split at h
    · rename_i hcomma
      obtain ⟨v, _, ⟨s, rfl, hparted, hv⟩, _, _, ⟨rfl, rfl⟩, rfl, rfl⟩ := h
      refine ⟨some s, rfl, hparted, ?_, Option.map_eq_some_iff.2 ⟨v, hv, rfl⟩⟩
      rintro _ ⟨⟩
      rw [← hcomma, ← hnext, s.head?_row]
    · obtain ⟨_, _, ⟨rfl, rfl⟩, rfl, rfl⟩ := h
      exact ⟨none, rfl, trivial, nofun, rfl⟩

/-- **What is taken for a header, and what is made of it.** -/
theorem reads_read : Reads read fun w p rest =>
    ∃ h : Header, h.packet = p ∧ w = h.bytes ++ rest := by
  have h (timeout : UInt32) := reads_byte.bind fun link => reads_word.bind fun remaining =>
    reads_ending timeout link remaining
  refine Reads.congr (Reads.fieldTimeout_bind h) fun w p rest => ?_
  constructor
  · rintro ⟨⟨⟨link, length, sender⟩, packet, hpacket, hparted, hcomma⟩, rfl, rfl⟩
    obtain ⟨link', hlink, hpacket⟩ := Option.bind_eq_some_iff.1 hpacket
    obtain ⟨length', hlength, hpacket⟩ := Option.bind_eq_some_iff.1 hpacket
    obtain ⟨hlinkEnd, hlengthEnd, hparted⟩ := (Token.parted_cons_iff rest).1 hparted
    refine ⟨link', _, ⟨link, ?_, hlinkEnd, hlink⟩, length', _, ⟨length, ?_, hlengthEnd, hlength⟩,
      sender, rfl, hparted, hcomma, hpacket⟩
    · rw [Header.bytes_append, HeaderTokens.row_all, Token.row_cons, List.append_assoc]
    · rw [Token.row_cons, List.append_assoc]
  · rintro ⟨link', _, ⟨link, rfl, hlinkEnd, hlink⟩, length', _, ⟨length, rfl, hlengthEnd, hlength⟩,
      sender, rfl, hparted, hcomma, hpacket⟩
    rw [← List.append_assoc] at hlinkEnd
    refine ⟨⟨⟨link, length, sender⟩, p, ?_,
      (Token.parted_cons_iff _).2 ⟨hlinkEnd, hlengthEnd, hparted⟩, hcomma⟩, rfl, ?_⟩
    · exact Option.bind_eq_some_iff.2 ⟨link', hlink,
        Option.bind_eq_some_iff.2 ⟨length', hlength, hpacket⟩⟩
    · rw [Header.bytes_append, HeaderTokens.row_all]
      rfl

end Packet

namespace Header

/-- **Bytes pass for a header in one way only.** -/
theorem append_inj {h h' : Header} {rest rest' : Bytes} (heq : h.bytes ++ rest = h'.bytes ++ rest') :
    h = h' ∧ rest = rest' := by
  obtain ⟨⟨link, length, sender⟩, packet, hpacket, hparted, hcomma⟩ := h
  obtain ⟨⟨link', length', sender'⟩, packet', hpacket', hparted', hcomma'⟩ := h'
  rw [bytes_append, bytes_append, HeaderTokens.row_all, HeaderTokens.row_all] at heq
  obtain ⟨hlink, hlength, hothers⟩ := (Token.parted_cons_iff rest).1 hparted
  obtain ⟨hlink', hlength', hothers'⟩ := (Token.parted_cons_iff rest').1 hparted'
  rw [Token.row_cons, List.append_assoc] at hlink hlink'
  obtain ⟨rfl, heq⟩ := Token.append_inj hlink hlink' heq
  obtain ⟨rfl, heq⟩ := Token.append_inj hlength hlength' heq
  -- the byte after the length tells whether there is a sender
  have named (s : SenderTokens) (hs : s.a.bytes.head? = some (ascii ',')) (w w' : Bytes) :
      ascii ':' :: w ≠ Token.row s.all ++ w' := by
    intro h
    have hhead := congrArg List.head? h
    rw [s.head?_row, hs] at hhead
    exact absurd (Option.some.inj hhead) (by decide)
  have hsender : sender = sender' ∧ rest = rest' := by
    unfold HeaderTokens.others at heq hothers hothers'
    cases sender with
    | none =>
      cases sender' with
      | none => exact ⟨rfl, (List.cons.inj heq).2⟩
      | some s' => exact absurd heq (named s' (hcomma' s' rfl) _ _)
    | some s =>
      cases sender' with
      | none => exact absurd heq.symm (named s (hcomma s rfl) _ _)
      | some s' =>
        obtain ⟨hall, hrest⟩ := Token.row_inj hothers hothers' rfl heq
        exact ⟨congrArg some (SenderTokens.all_inj hall), (List.cons.inj hrest).2⟩
  obtain ⟨rfl, rfl⟩ := hsender
  obtain rfl : packet = packet' := Option.some.inj (hpacket.symm.trans hpacket')
  exact ⟨rfl, rfl⟩

/-! ### Headers as they are written -/

/-- A number as it is written, with a separator before it. -/
def token (gap : Bytes) (n : Nat) (idle : gap.any starts = false := by decide) : Token :=
  ⟨gap, .ofNat n, by simpa using idle⟩

theorem bytes_token {gap : Bytes} {n : Nat} {idle : gap.any starts = false} :
    (token gap n idle).bytes = gap ++ decimal n := by
  rw [← Spelling.bytes_ofNat]
  rfl

theorem value_token {gap : Bytes} {n : Nat} {idle : gap.any starts = false} :
    (token gap n idle).number.value = n := Spelling.value_ofNat n

/-- The numbers of a header, with the separators before them. -/
def writtenTokens (link : UInt8) (length : UInt16) (sender : Option (Ipv4 × UInt16)) :
    HeaderTokens where
  link := token [] link.toNat
  length := token [ascii ','] length.toNat
  sender := sender.map fun s =>
    { a := token [ascii ',', ascii '"'] s.1.a.toNat
      b := token [ascii '.'] s.1.b.toNat
      c := token [ascii '.'] s.1.c.toNat
      d := token [ascii '.'] s.1.d.toNat
      port := token [ascii '"', ascii ','] s.2.toNat }

variable (link : UInt8) (length : UInt16) (sender : Option (Ipv4 × UInt16))

theorem packet?_written : (writtenTokens link length sender).packet? =
    some ⟨link, length, sender.map Prod.fst, sender.elim 0 Prod.snd⟩ := by
  cases sender <;>
    simp [writtenTokens, HeaderTokens.packet?, HeaderTokens.announced?, SenderTokens.sender?,
      value_token, Packet.byte?_toNat, Packet.word?_toNat]

theorem parted_written : Token.Parted (writtenTokens link length sender).all [ascii ':'] := by
  have hmarks : isDigitByte (ascii ',') = false ∧ isDigitByte (ascii '"') = false ∧
      isDigitByte (ascii '.') = false ∧ isDigitByte (ascii ':') = false := by decide
  cases sender <;>
    simp [writtenTokens, HeaderTokens.all, HeaderTokens.others, SenderTokens.all, Token.Parted,
      Token.row, bytes_token, hmarks]

/-- **The header that is written for a packet.** -/
def written : Header where
  toHeaderTokens := writtenTokens link length sender
  packet := ⟨link, length, sender.map Prod.fst, sender.elim 0 Prod.snd⟩
  packet?_eq := packet?_written link length sender
  parted := parted_written link length sender
  comma := by
    cases sender with
    | none => exact nofun
    | some v =>
      rintro _ ⟨⟩
      rfl

theorem bytes_written : (written link length sender).bytes =
    Frame.fields link.toNat length.toNat sender := by
  cases sender <;>
    simp [bytes, written, writtenTokens, HeaderTokens.all, HeaderTokens.others, SenderTokens.all,
      Token.row, bytes_token, Frame.fields, Frame.senderText, utf8_text]

/-- A header that is written has the documented form. -/
theorem documented_written : (written link length sender).Documented := by
  constructor <;> cases sender <;>
    simp [written, writtenTokens, HeaderTokens.all, HeaderTokens.others, SenderTokens.all, token,
      separators, Spelling.ofNat]

end Header

namespace Packet

variable {e : Engine Bench} {w rest : Bytes}

/-- A header is read, and what comes after it is left. -/
theorem run_read (header : Header) (h : e.device.Holds (header.bytes ++ rest)) :
    ∃ b : Bench, read.run e = .ok (some header.packet) { e with device := b } ∧ b.Holds rest := by
  obtain ⟨r, _, hrun, b, left, rfl, hb, hr⟩ := wp_false_iff.1 (reads_read e _ h)
  obtain ⟨rfl, rfl⟩ := (hr header.packet rest).1 ⟨header, rfl, rfl⟩
  exact ⟨b, hrun, hb⟩

theorem wp_read {cut : Prop} {link length : Nat} {sender : Option (Ipv4 × UInt16)}
    {Q : Option Packet → Engine Bench → Prop}
    (h : e.device.Holds (Frame.fields link length sender ++ rest)) (hlink : link < 256)
    (hlength : length < 65536)
    (hQ : ∀ b : Bench, b.Holds rest →
      Q (some ⟨link.toUInt8, length.toUInt16, sender.map Prod.fst, sender.elim 0 Prod.snd⟩)
        { e with device := b }) :
    wp cut read.run Q e := by
  have hbyte : link.toUInt8.toNat = link := UInt8.toNat_ofNat_of_lt' hlink
  have hword : length.toUInt16.toNat = length := UInt16.toNat_ofNat_of_lt' hlength
  have hfields := Header.bytes_written link.toUInt8 length.toUInt16 sender
  rw [hbyte, hword] at hfields
  rw [← hfields] at h
  obtain ⟨b, hrun, hb⟩ := run_read _ h
  exact (wp_iff_of_ok hrun).2 (hQ b hb)

/-- **The header that was written is the header that is read**, and what comes after it is left, whatever
that is. -/
theorem read_fields (link : UInt8) (length : UInt16) (sender : Option (Ipv4 × UInt16)) (tail : Bytes)
    (h : e.device.Holds (Frame.fields link.toNat length.toNat sender ++ tail)) :
    ∃ b : Bench, read.run e = .ok
      (some { link, remaining := length
              remoteIp := sender.map Prod.fst, remotePort := sender.elim 0 Prod.snd })
      { e with device := b } ∧ b.Holds tail := by
  rw [← Header.bytes_written] at h
  exact run_read _ h

/-- A payload that goes on as the header does. -/
theorem read_fields_digits :
    ∃ b : Bench, read.run
      ({ device := { rx := Frame.fields 3 12 (some (⟨10, 0, 0, 5⟩, 1234)) ++ utf8 "1,\"2:3" } } :
        Engine Bench) = .ok (some ⟨3, 12, some ⟨10, 0, 0, 5⟩, 1234⟩) { device := b } ∧
      b.Holds (utf8 "1,\"2:3") :=
  read_fields 3 12 (some (⟨10, 0, 0, 5⟩, 1234)) (utf8 "1,\"2:3") ⟨rfl, rfl, rfl⟩

/-- **Which bytes are taken for a header, and what is made of them.** The program always returns. If no
beginning of what waits passes for a header, it returns none. Otherwise exactly one does, in exactly one
way; it is read and what comes after it is left. What waits begins with a header of the documented form
exactly if this one has that form. -/
theorem read_accepts (h : e.device.Holds w) :
    ∃ r b left, read.run e = .ok r { e with device := b } ∧ b.Holds left ∧
      ((r = none ∧ ∀ (header : Header) rest, w ≠ header.bytes ++ rest) ∨
        ∃ header : Header, r = some header.packet ∧ w = header.bytes ++ left ∧
          (∀ (other : Header) rest, w = other.bytes ++ rest → other = header ∧ rest = left) ∧
          ((∃ (other : Header) (rest : Bytes), other.Documented ∧ w = other.bytes ++ rest) ↔
            header.Documented)) := by
  obtain ⟨r, _, hrun, b, left, rfl, hb, hr⟩ := wp_false_iff.1 (reads_read e w h)
  refine ⟨r, b, left, hrun, hb, ?_⟩
  cases r with
  | none =>
    refine .inl ⟨rfl, fun header rest hw => ?_⟩
    cases ((hr header.packet rest).1 ⟨header, rfl, hw⟩).1
  | some p =>
    obtain ⟨header, rfl, hw⟩ := (hr p left).2 ⟨rfl, rfl⟩
    have unique (other : Header) (rest : Bytes) (hother : w = other.bytes ++ rest) :
        other = header ∧ rest = left := Header.append_inj (hother.symm.trans hw)
    refine .inr ⟨header, rfl, hw, unique, ?_, fun hdoc => ⟨header, left, hdoc, hw⟩⟩
    rintro ⟨other, rest, hdoc, hother⟩
    exact (unique other rest hother).1 ▸ hdoc

/-- A header without its length, and a payload with a number and a colon in it. -/
def strayColon : Header where
  link := Header.token [] 1
  length := Header.token [ascii ',', ascii ':'] 7
  sender := none
  packet := ⟨1, 7, none, 0⟩
  packet?_eq := by decide +kernel
  parted := by
    refine ⟨?_, ?_, trivial⟩ <;> rintro _ ⟨⟩ <;> rfl
  comma := nofun

theorem read_accepts_stray : ∃ r b left,
    read.run ({ device := { rx := utf8 "1,:7:x" } } : Engine Bench) = .ok r { device := b } ∧
    b.Holds left ∧ r = some ⟨1, 7, none, 0⟩ ∧ left = utf8 "x" := by
  obtain ⟨r, b, left, hrun, hb, ⟨-, hnone⟩ | ⟨header, rfl, -, hunique, -⟩⟩ :=
    read_accepts (e := { device := { rx := utf8 "1,:7:x" } }) ⟨rfl, rfl, rfl⟩
  · exact absurd (by decide +kernel) (hnone strayColon (utf8 "x"))
  · obtain ⟨rfl, rfl⟩ := hunique strayColon (utf8 "x") (by decide +kernel)
    exact ⟨_, b, _, hrun, hb, rfl, rfl⟩

/-- **A length that is missing is made up of the payload.** -/
theorem length_from_payload :
    value? (do return (← read.run, (← get).device.rx))
      ({ device := { rx := utf8 "1,:7:x" } } : Engine Bench) =
        some (some ⟨1, 7, none, 0⟩, utf8 "x") ∧
    ∀ (header : Header) rest, header.Documented → utf8 "1,:7:x" ≠ header.bytes ++ rest := by
  refine ⟨by decide +kernel, fun header rest hdoc hw => ?_⟩
  have hstray : utf8 "1,:7:x" = strayColon.bytes ++ utf8 "x" := by decide +kernel
  obtain ⟨rfl, -⟩ := Header.append_inj (hw.symm.trans hstray)
  exact absurd hdoc.1 (by decide +kernel)

end Packet

end EspWifi
