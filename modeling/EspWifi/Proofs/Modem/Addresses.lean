import EspWifi.Proofs.Modem.Question
import EspWifi.Proofs.Text.Addresses

/-!
# Questions for addresses

The module prints an address between quotes. Its answer may hold other addresses, before and behind the one
that was asked for; the tag in front of an address tells them apart.

* `Question.Leads`: what comes before an address.
* `Between.quoted`: a response with a field that ends with a quote.
* `Driver.addresses_read`: **the queries for addresses return what the module prints.**
-/

namespace EspWifi

open Run

/-- **A response with a field that ends with a quote.** -/
def Between.quoted (pre start : Bytes) (field : List Char) (post : Bytes)
    (field_ascii : ∀ c ∈ field, c.toNat < 128) (unquoted : '"' ∉ field)
    (start_first : ∀ p, p <+: pre ++ start → p ≠ pre ++ start → ¬ start <:+ p) : Between where
  pre := pre
  start := start
  field := field
  stop := utf8 "\""
  post := post
  field_ascii := field_ascii
  start_first := start_first
  stop_first := Scan.first_of_head fun hmem => unquoted ((ascii_mem_map field_ascii (by decide)).1 hmem)

namespace Question

open Driver

/-- **What comes before the field**: its tag is there for the first time, and no known tag is complete up to
there. -/
structure Leads {α : Type} (q : Question α) (pre : Bytes) : Prop where
  first : ∀ p, p <+: pre ++ utf8 q.start → p ≠ pre ++ utf8 q.start → ¬ utf8 q.start <:+ p
  unknown : ∀ p, p <+: pre ++ utf8 q.start → ∀ t : Tag, ¬ t.bytes <:+ p

variable {α : Type} {q : Question α} {a : α} {pre post : Bytes} {field : List Char} {d d₁ : Driver Bench}

instance : Decidable (q.Leads pre) :=
  decidable_of_iff
    ((∀ p ∈ (pre ++ utf8 q.start).inits, p ≠ pre ++ utf8 q.start → ¬ utf8 q.start <:+ p) ∧
      ∀ p ∈ (pre ++ utf8 q.start).inits, ∀ t ∈ Tag.all, ¬ t.bytes <:+ p) <| by
    constructor
    · rintro ⟨hfirst, hunknown⟩
      exact ⟨fun p hp => hfirst p ((List.mem_inits p _).2 hp),
        fun p hp t => hunknown p ((List.mem_inits p _).2 hp) t t.mem_all⟩
    · rintro ⟨hfirst, hunknown⟩
      exact ⟨fun p hp => hfirst p ((List.mem_inits p _).1 hp),
        fun p hp t _ => hunknown p ((List.mem_inits p _).1 hp) t⟩

/-- **A short field between its tag and a quote is read whole.** -/
theorem Leads.exists_ask (hleads : q.Leads pre)
    (h : q.Answered (pre ++ utf8 q.start ++ utf8 (String.ofList field) ++ utf8 "\"" ++ post) d d₁)
    (hstart : utf8 q.start ≠ [] ∧ (utf8 q.start).length ≤ windowSize) (hstop : q.stop = "\"")
    (hroom : q.room < windowSize) (hshort : field.length ≤ q.room)
    (hprintable : ∀ c ∈ field, Printable c) (hunquoted : '"' ∉ field)
    (hread : q.read (String.ofList field) = some a) : ∃ d', q.ask.run d = .ok (.ok a) d' := by
  have hascii : ∀ c ∈ field, c.toNat < 128 := fun c hc => (hprintable c hc).lt
  let x := Between.quoted pre (utf8 q.start) field post hascii hunquoted hleads.first
  have hbytes : pre ++ utf8 q.start ++ utf8 (String.ofList field) ++ utf8 "\"" ++ post = x.bytes := by
    rw [utf8_ofList hascii]
    simp [x, Between.bytes, Between.fieldBytes, Between.quoted]
  have hline : ascii '\n' ∉ x.fieldBytes := fun hmem =>
    (hprintable '\n' ((ascii_mem_map hascii (by decide)).1 hmem)).ne_of_lt (by decide) rfl
  have hseen : x.Seen := by
    have hquote : Scan.Sees x.fieldBytes (utf8 "\"") :=
      Scan.Sees.of_line [] (by decide) (by rwa [List.append_nil])
    exact ⟨⟨hstart.1, hstart.2, fun p hp _ => hleads.unknown p hp⟩, hquote⟩
  have hkept : x.kept = field := by
    refine x.kept_of_fits ?_
    show field.length + 1 ≤ windowSize
    omega
  rw [hbytes] at h
  obtain ⟨d', hrun⟩ := h.exists_ask rfl (by rw [hstop]; rfl) hseen
  refine ⟨d', hrun.trans ?_⟩
  rw [hkept, result_of_some hshort hread]

/-! ### The questions -/

def stationAddress : Question Ipv4 where
  note := "> local_ip"
  command := "AT+CIFSR"
  start := ":STAIP,\""
  stop := "\""
  room := addressCapacity
  read := Ipv4.ofText?

def accessPointAddress : Question Ipv4 where
  note := "> local_ip_ap"
  command := "AT+CIPAP?"
  start := "+CIPAP:ip:\""
  stop := "\""
  room := addressCapacity
  read := Ipv4.ofText?

def netmask : Question Ipv4 where
  note := "> netmask"
  command := "AT+CIPSTA?"
  start := "+CIPSTA:netmask:\""
  stop := "\""
  room := addressCapacity
  read := Ipv4.ofText?

def gateway : Question Ipv4 where
  note := "> gateway"
  command := "AT+CIPSTA?"
  start := "+CIPSTA:gateway:\""
  stop := "\""
  room := addressCapacity
  read := Ipv4.ofText?

def macAddress : Question Mac where
  note := "> mac_address"
  command := "AT+CIFSR"
  start := ":STAMAC,\""
  stop := "\""
  room := addressCapacity
  read := Mac.ofText?

end Question

namespace Driver

/-- The questions for an IPv4 address, and the queries that ask them. -/
def addressQueries : List (Question Ipv4 × Attempt (Driver Bench) Ipv4) :=
  [(Question.stationAddress, stationAddress), (Question.accessPointAddress, accessPointAddress),
    (Question.netmask, netmask), (Question.gateway, gateway)]

theorem ask_eq_of_mem_addressQueries {q : Question Ipv4} {query : Attempt (Driver Bench) Ipv4}
    (h : (q, query) ∈ addressQueries) : query = q.ask ∧ q.stop = "\"" ∧ q.room = addressCapacity ∧
      q.read = Ipv4.ofText? ∧ utf8 q.start ≠ [] ∧ (utf8 q.start).length ≤ windowSize := by
  simp only [addressQueries, List.mem_cons, List.not_mem_nil, or_false, Prod.mk.injEq] at h
  rcases h with ⟨rfl, rfl⟩ | ⟨rfl, rfl⟩ | ⟨rfl, rfl⟩ | ⟨rfl, rfl⟩
  all_goals exact ⟨rfl, rfl, rfl, rfl, by decide, by decide⟩

/-- **The queries for addresses return what the module prints.** The address that was asked for stands between
its tag and a quote, and there is time to read the response; the tag is there for the first time, and no
known tag is complete before. What the rest of the response holds makes no difference. The octets of a MAC
address, which are printed in hex and in either case, come out in reversed order. -/
theorem addresses_read (pre post : Bytes) (d d₁ : Driver Bench) :
    (∀ q query, (q, query) ∈ addressQueries → q.Leads pre → ∀ ip : Ipv4,
      q.Answered (pre ++ utf8 q.start ++ utf8 ip.text ++ utf8 "\"" ++ post) d d₁ →
        ∃ d', query.run d = .ok (.ok ip) d') ∧
    (Question.macAddress.Leads pre → ∀ (octets : Vector UInt8 6) (upper : Fin 6 → Bool × Bool),
      Question.macAddress.Answered (pre ++ utf8 ":STAMAC,\"" ++
          utf8 (String.ofList (Mac.print octets upper)) ++ utf8 "\"" ++ post) d d₁ →
        ∃ d', macAddress.run d = .ok (.ok ⟨octets.reverse⟩) d') := by
  constructor
  · intro q query hmem hleads ip h
    obtain ⟨rfl, hstop, hroom, hread, hstart⟩ := ask_eq_of_mem_addressQueries hmem
    have hlength := ip.length_text_le
    have hunquoted : '"' ∉ ip.text.toList := by
      intro hc
      rcases Ipv4.isDigit_or_dot_of_mem hc with hdigit | hdot
      · exact absurd hdigit (by decide)
      · exact absurd hdot (by decide)
    rw [← String.ofList_toList (s := ip.text)] at h
    refine hleads.exists_ask h hstart hstop (by rw [hroom]; decide) ?_
      (fun _ => Ipv4.printable_of_mem) hunquoted ?_
    · rw [hroom]
      exact hlength.trans (by decide)
    · rw [hread, String.ofList_toList, Ipv4.ofText?_text]
  · intro hleads octets upper h
    have hask : (macAddress : Attempt (Driver Bench) Mac) = Question.macAddress.ask := rfl
    have hlength := Mac.length_print octets upper
    rw [hask]
    exact hleads.exists_ask h (by decide) rfl (by decide) (by rw [hlength]; decide)
      (fun _ => Mac.printable_of_mem) (Mac.not_mem_print (by decide) (by decide))
      (Mac.ofText?_print octets upper)

/-- The module tells of its gateway and of its netmask. -/
def netmaskTold : Driver Bench where
  engine := .sayingBack (utf8 "+CIPSTA:gateway:\"192.168.1.1\"\r\n" ++
    utf8 "+CIPSTA:netmask:\"255.255.255.0\"\r\n\r\nOK\r\n")

/-- The module tells of its address in the network and of its MAC address. -/
def macAddressTold : Driver Bench where
  engine := .sayingBack (utf8 "+CIFSR:STAIP,\"192.168.1.57\"\r\n" ++
    utf8 "+CIFSR:STAMAC,\"1A:fe:34:00:00:01\"\r\n\r\nOK\r\n")

theorem addresses_read_behind_others :
    (∃ d', netmask.run netmaskTold = .ok (.ok ⟨255, 255, 255, 0⟩) d') ∧
    ∃ d', macAddress.run macAddressTold = .ok (.ok ⟨#v[0x01, 0x00, 0x00, 0x34, 0xfe, 0x1a]⟩) d' := by
  constructor
  · have hleads : Question.netmask.Leads (utf8 "+CIPSTA:gateway:\"192.168.1.1\"\r\n") := by
      decide +kernel
    obtain ⟨d₁, hanswered⟩ := Question.exists_answered (q := Question.netmask) (d := netmaskTold)
      (utf8 "+CIPSTA:gateway:\"192.168.1.1\"\r\n" ++ utf8 Question.netmask.start ++
        utf8 (Ipv4.text ⟨255, 255, 255, 0⟩) ++ utf8 "\"" ++ utf8 "\r\n\r\nOK\r\n")
      (by decide +kernel) (by decide +kernel)
    exact (addresses_read _ _ _ d₁).1 _ _ (by simp [addressQueries]) hleads _ hanswered
  · have hleads : Question.macAddress.Leads (utf8 "+CIFSR:STAIP,\"192.168.1.57\"\r\n+CIFSR") := by
      decide +kernel
    obtain ⟨d₁, hanswered⟩ := Question.exists_answered (q := Question.macAddress) (d := macAddressTold)
      (utf8 "+CIFSR:STAIP,\"192.168.1.57\"\r\n+CIFSR" ++ utf8 ":STAMAC,\"" ++
        utf8 (String.ofList (Mac.print #v[0x1a, 0xfe, 0x34, 0x00, 0x00, 0x01] fun i => (i == 0, i == 0))) ++
        utf8 "\"" ++ utf8 "\r\n\r\nOK\r\n")
      (by decide +kernel) (by decide +kernel)
    have hreversed : (#v[0x1a, 0xfe, 0x34, 0x00, 0x00, 0x01] : Vector UInt8 6).reverse =
        #v[0x01, 0x00, 0x00, 0x34, 0xfe, 0x1a] := by decide +kernel
    rw [← hreversed]
    exact (addresses_read _ _ _ d₁).2 hleads _ _ hanswered

end Driver

end EspWifi
