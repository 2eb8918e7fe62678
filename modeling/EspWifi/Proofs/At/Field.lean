import EspWifi.Proofs.At.Lines
import EspWifi.Proofs.At.Patience
import EspWifi.Proofs.At.Waiting
import EspWifi.Proofs.Text.LineEnds

/-!
# Fields between two tags

A field of a response is taken out of the window of the scan that has found its end. The window holds the
last bytes of that scan only: of a field for which it has no room, together with the tag behind it, the
front is gone, while the text that is returned is cut at its end.

* `Scan.Sees`: which tags a scan sees; `Scan.Decided.sees`: it finds them at their first place.
* `Between`: a response with a field between two tags; `Between.kept`: what the window keeps of it.
* `Engine.queryField_between`: **which text is returned**, for every such response.
-/

namespace EspWifi

open Run

namespace Scan

variable {c tag rest x : Bytes}

/-- **A scan sees a tag behind the bytes `c`**: it fits into the window, and no known tag is complete
before it is. -/
structure Sees (c tag : Bytes) : Prop where
  ne_nil : tag ≠ []
  fits : tag.length ≤ windowSize
  unknown : ∀ p, p <+: c ++ tag → p ≠ c ++ tag → ∀ t : Tag, ¬ t.bytes <:+ p

instance (c tag : Bytes) : Decidable (Sees c tag) :=
  decidable_of_iff (tag ≠ [] ∧ tag.length ≤ windowSize ∧
      ∀ p ∈ (c ++ tag).inits, p ≠ c ++ tag → ∀ t ∈ Tag.all, ¬ t.bytes <:+ p) <| by
    constructor
    · rintro ⟨hne, hfits, h⟩
      exact ⟨hne, hfits, fun p hp hpc t => h p ((List.mem_inits p _).2 hp) hpc t t.mem_all⟩
    · rintro ⟨hne, hfits, h⟩
      exact ⟨hne, hfits, fun p hp hpc t _ => h p ((List.mem_inits p _).1 hp) hpc t⟩

theorem Sees.decided (h : Sees c tag) (first : ∀ p, p <+: c ++ tag → p ≠ c ++ tag → ¬ tag <:+ p) :
    Decided (some tag) true (c ++ tag) .found :=
  decided_found h.ne_nil h.fits (List.suffix_append c tag) first fun _ => h.unknown

/-- **A scan that finds a tag has read up to the first place of it**, and it sees it there. -/
theorem Decided.sees (h : Decided (some tag) true x .found) (hx : x <+: c ++ tag ++ rest)
    (first : ∀ p, p <+: c ++ tag → p ≠ c ++ tag → ¬ tag <:+ p) : Sees c tag := by
  obtain ⟨_, ⟨⟩, hne, hfits, hsuf⟩ := of_eq_found_iff.1 h.verdict
  have silent {p : Bytes} (hp : p <+: x) (hpx : p ≠ x) : ¬ Matches (some tag) true p :=
    of_eq_none_iff.1 (h.first p hp hpx)
  obtain rfl : x = c ++ tag := by
    rcases List.prefix_or_prefix_of_prefix hx (List.prefix_append (c ++ tag) rest) with hshort | hlong
    · by_contra hxc
      exact first x hshort hxc hsuf
    · by_contra hxc
      exact silent hlong (Ne.symm hxc) (.inl ⟨tag, rfl, hne, hfits, List.suffix_append c tag⟩)
  exact ⟨hne, hfits, fun p hp hpc t ht => silent hp hpc (.inr ⟨rfl, t, ht⟩)⟩

end Scan

/-- **A response with a field between two tags.** Each of the tags is complete there for the first time:
the one since the response began, the other since the field did. -/
structure Between where
  /-- What comes before the first tag. -/
  pre : Bytes
  start : Bytes
  field : List Char
  stop : Bytes
  /-- What comes after the second tag. -/
  post : Bytes
  field_ascii : ∀ c ∈ field, c.toNat < 128
  start_first : ∀ p, p <+: pre ++ start → p ≠ pre ++ start → ¬ start <:+ p
  stop_first : ∀ p, p <+: field.map ascii ++ stop → p ≠ field.map ascii ++ stop → ¬ stop <:+ p

namespace Between

variable (x : Between)

/-- The field, as it goes over the link. -/
def fieldBytes : Bytes := x.field.map ascii

/-- **The response.** -/
def bytes : Bytes := (x.pre ++ x.start) ++ ((x.fieldBytes ++ x.stop) ++ x.post)

/-- Both tags are seen. -/
def Seen : Prop := Scan.Sees x.pre x.start ∧ Scan.Sees x.fieldBytes x.stop

/-- **What of the field is still in the window** when the tag behind it is complete. -/
def kept : List Char := x.field.drop (x.field.length + x.stop.length - windowSize)

/-- Nothing of a field is lost that fits into the window together with the tag behind it. -/
theorem kept_of_fits (h : x.field.length + x.stop.length ≤ windowSize) : x.kept = x.field := by
  unfold kept
  rw [Nat.sub_eq_zero_of_le h, List.drop_zero]

/-- What is kept of a field is taken out of the window. -/
theorem extract_last (h : x.stop.length ≤ windowSize) (m : Nat) :
    (Window.last (x.fieldBytes ++ x.stop) : Window windowSize).extract m x.stop.length =
      .ok (String.ofList (x.kept.take m)) := by
  have hlength : x.fieldBytes.length = x.field.length := List.length_map ascii
  have hascii : ∀ c ∈ x.kept.take m, c.toNat < 128 := fun c hc =>
    x.field_ascii c (List.mem_of_mem_drop (List.mem_of_mem_take hc))
  have hkept : x.fieldBytes.drop (x.field.length + x.stop.length - windowSize) = x.kept.map ascii :=
    List.map_drop.symm
  unfold Window.extract
  rw [Window.bytes_last, List.length_append, hlength, List.drop_append_of_le_length (by omega), hkept,
    List.length_append, Nat.add_sub_cancel, List.take_left, ← List.map_take, ← utf8_ofList hascii,
    text?_utf8]

/-- **There is time to read the response.** The tags come before the scans for them are over, and the
clock passes the timeouts. -/
structure InTime (e : Engine Bench) : Prop where
  start : (x.pre ++ x.start).length * e.device.step < e.timeouts.expectStart.toNat
  stop : (x.fieldBytes ++ x.stop).length * e.device.step < e.timeouts.expectEnd.toNat
  start_passes : e.device.Passes e.timeouts.expectStart
  stop_passes : e.device.Passes e.timeouts.expectEnd
  post_passes : e.device.Passes e.timeouts.drain

variable {x} in
/-- There is time for a response that is shorter than the timeouts, if the clock moves by one with each
look. -/
theorem InTime.of_short {e : Engine Bench} (h : e.device.step = 1)
    (hstart : x.bytes.length < e.timeouts.expectStart.toNat)
    (hstop : x.bytes.length < e.timeouts.expectEnd.toNat) : x.InTime e := by
  have passes : ∀ timeout, e.device.Passes timeout := Bench.passes_of_step_one h
  unfold bytes at hstart hstop
  simp only [List.length_append] at hstart hstop
  refine ⟨?_, ?_, passes _, passes _, passes _⟩ <;> rw [h, Nat.mul_one, List.length_append] <;> omega

end Between

namespace Engine

section

variable {σ : Type} [Device σ]

/-- Throw away what waits, and send a command. -/
def ask (command : String) : Attempt (Engine σ) Unit := do
  issue (← liftResult (commandLine [command]))

/-- Read the field of the response. -/
def hearField (start stop : Bytes) (m : Nat) : Attempt (Engine σ) String := do
  let text ← readField start stop m
  logDebug s!"<< {text}"
  return text

theorem queryField_eq (command : String) (start stop : Bytes) (m : Nat) :
    (queryField command start stop m : Attempt (Engine σ) String) =
      (do ask command; hearField start stop m) := by
  unfold queryField ask
  rw [bind_assoc]
  rfl

end

variable {α : Type} {cut : Prop} {e : Engine Bench} {c tag rest : Bytes} {timeout : UInt32}

theorem wp_record_any {Q : Unit → Engine Bench → Prop} {level : Level} {message : String}
    (hQ : ∀ e', Q () e') : wp cut (MonadLog.record level message) Q e := by
  show wp cut (onDevice (Device.record level message)) Q e
  rw [wp_onDevice, Bench.wp_record]
  exact hQ _

/-- **A tag that a scan does not see is not found.** -/
theorem wp_awaitTag_unseen {Q : Scan → Engine Bench → Prop} (h : e.device.Waits (c ++ tag ++ rest))
    (first : ∀ p, p <+: c ++ tag → p ≠ c ++ tag → ¬ tag <:+ p) (unseen : ¬ Scan.Sees c tag)
    (hpasses : e.device.Passes timeout) (hQ : ∀ s e', s ≠ .found → Q s e') :
    wp False (awaitTag timeout (some tag) true) Q e := by
  have hreturns : wp False (awaitTag timeout (some tag) true) (fun _ _ => True) e :=
    wp_mono (returns_awaitTag hpasses) fun _ _ _ => trivial
  refine wp_mono (wp_of_returns wp_awaitTag_stream hreturns) ?_
  rintro s e' ⟨x, hstream, -, hread⟩
  have hx : x <+: c ++ tag ++ rest := by
    have hall : e.device.stream = c ++ tag ++ rest := by
      unfold Bench.stream
      rw [h.rx, h.arrivals]
      exact List.append_nil _
    exact ⟨_, hstream.symm.trans hall⟩
  refine hQ s e' ?_
  rintro rfl
  rcases hread with hdecided | ⟨htimedOut, -⟩
  · exact unseen (hdecided.sees hx first)
  · cases htimedOut

/-- A failure that is noted in the log. -/
theorem wp_logThrow {Q : α → Engine Bench → Prop} {F : Fault → Engine Bench → Prop} {level : Level}
    {message : String} {f : Fault} (hF : ∀ e', F f e') :
    Attempt.wp cut (do MonadLog.record level message; throw f) Q F e :=
  Attempt.wp_bind.2 (Attempt.wp_lift.2 (wp_record_any hF))

section

/-- **There is time for `n` bytes** in each of the scans for a field. -/
structure TimeFor (e : Engine Bench) (n : Nat) : Prop where
  start : n * e.device.step < e.timeouts.expectStart.toNat
  stop : n * e.device.step < e.timeouts.expectEnd.toNat
  rest : n * e.device.step < e.timeouts.drain.toNat

variable {start stop c₁ c₂ c₃ : Bytes} {m n : Nat} {t : Tag} {text : String}

/-- A log record leaves what waits. -/
theorem wp_record_waiting {w : Bytes} {level : Level} {message : String}
    {Q : Unit → Engine Bench → Prop} (h : e.device.Waits w)
    (hQ : ∀ b : Bench, b.Waits w → b.step = e.device.step → Q () { e with device := b }) :
    wp cut (MonadLog.record level message) Q e :=
  wp_record_waits h (.refl _) fun b hb hb' => hQ b hb hb'.step

/-- **A response that ends before the field is left where it ends.** -/
theorem wp_hearField_ended (h : e.device.Waits (c ++ rest)) (htime : e.TimeFor n) (hn : c.length ≤ n)
    (hc : Scan.Decided (some start) true c (.matched t)) :
    Attempt.wp cut (hearField start stop m) (fun _ _ => False)
      (fun f e' => f = .notFound t ∧ e'.device.Waits rest) e := by
  have hearly : c.length * e.device.step < e.timeouts.expectStart.toNat :=
    Nat.lt_of_le_of_lt (Nat.mul_le_mul_right _ hn) htime.start
  unfold hearField readField
  simp only [Attempt.wp_bind, Attempt.wp_get, Attempt.wp_lift]
  refine wp_awaitTag_waits h hc hearly fun b hb _ => ?_
  exact Attempt.wp_bind.2 (Attempt.wp_lift.2 (wp_record_waiting hb fun b' hb' _ => ⟨rfl, hb'⟩))

/-- **A response with a field is read up to the tag behind it.** -/
theorem wp_hearField_whole (h : e.device.Waits (c₁ ++ (c₂ ++ (c₃ ++ rest)))) (htime : e.TimeFor n)
    (hn : (c₁ ++ (c₂ ++ c₃)).length ≤ n) (h₁ : Scan.Decided (some start) true c₁ .found)
    (h₂ : Scan.Decided (some stop) true c₂ .found) (h₃ : Scan.Decided none true c₃ (.matched t))
    (hfield : (Window.last c₂ : Window windowSize).extract m stop.length = .ok text) :
    Attempt.wp cut (hearField start stop m) (fun a e' => a = text ∧ e'.device.Waits rest)
      (fun _ _ => False) e := by
  have hle {k : Nat} (hk : k ≤ n) : k * e.device.step ≤ n * e.device.step := Nat.mul_le_mul_right _ hk
  simp only [List.length_append] at hn
  have hstart := hle (k := c₁.length) (by omega)
  have hstop := hle (k := c₂.length) (by omega)
  have hrest := hle (k := c₃.length) (by omega)
  unfold hearField readField
  simp only [Attempt.wp_bind, Attempt.wp_get, Attempt.wp_lift]
  refine wp_awaitTag_waits h h₁ (hstart.trans_lt htime.start) fun b₁ w₁ s₁ => ?_
  simp only [Attempt.wp_bind, Attempt.wp_lift]
  refine wp_awaitTag_waits w₁ h₂ (by rw [s₁]; exact hstop.trans_lt htime.stop) fun b₂ w₂ s₂ => ?_
  simp only [Attempt.wp_bind, Attempt.wp_get, Attempt.wp_lift]
  refine wp_awaitTag_waits w₂ h₃ (by rw [s₂, s₁]; exact hrest.trans_lt htime.rest) fun b₃ w₃ _ => ?_
  rw [Attempt.wp_liftResult, hfield]
  exact Attempt.wp_lift.2 (wp_record_waiting w₃ fun b' hb' _ => ⟨rfl, hb'⟩)

end

variable (x : Between)

/-- **The field is read if both tags are seen**, and the scan for its end says what is kept of it. If a tag
is not seen, no text is returned. -/
theorem wp_readField_between (m : Nat) (h : e.device.Waits x.bytes) (htime : x.InTime e) :
    Attempt.wp False (readField x.start x.stop m)
      (fun text _ => x.Seen ∧ text = String.ofList (x.kept.take m)) (fun _ _ => ¬ x.Seen) e := by
  unfold readField
  unfold Between.bytes at h
  simp only [Attempt.wp_bind, Attempt.wp_get, Attempt.wp_lift]
  by_cases hstart : Scan.Sees x.pre x.start
  case neg =>
    refine wp_awaitTag_unseen h x.start_first hstart htime.start_passes fun s e' hs => ?_
    cases s with
    | found => exact absurd rfl hs
    | matched t => exact wp_logThrow fun _ hseen => hstart hseen.1
    | timedOut => exact wp_logThrow fun _ hseen => hstart hseen.1
  refine wp_awaitTag_waits h (hstart.decided x.start_first) htime.start fun b hb hstep => ?_
  have passes {timeout : UInt32} {b' : Bench} (hb' : b'.step = b.step)
      (h : e.device.Passes timeout) : b'.Passes timeout := h.of_step (hb'.trans hstep)
  simp only [Attempt.wp_bind, Attempt.wp_lift]
  by_cases hstop : Scan.Sees x.fieldBytes x.stop
  case neg =>
    refine wp_awaitTag_unseen hb x.stop_first hstop (passes rfl htime.stop_passes) fun s e' hs => ?_
    cases s with
    | found => exact absurd rfl hs
    | matched t => exact wp_logThrow fun _ hseen => hstop hseen.2
    | timedOut => exact wp_logThrow fun _ hseen => hstop hseen.2
  have hread : (x.fieldBytes ++ x.stop).length * b.step < e.timeouts.expectEnd.toNat := by
    rw [hstep]
    exact htime.stop
  refine wp_awaitTag_waits hb (hstop.decided x.stop_first) hread fun b' hb' hstep' => ?_
  simp only [Attempt.wp_bind, Attempt.wp_get, Attempt.wp_lift]
  refine wp_mono (returns_awaitTag (passes hstep' htime.post_passes)) fun _ _ _ => ?_
  rw [Attempt.wp_liftResult, x.extract_last hstop.fits]
  exact ⟨⟨hstart, hstop⟩, rfl⟩

/-- **Which text is returned.** The query returns; it returns a text exactly if both tags are seen, and then
the first `m` characters of what the window keeps of the field. So these are the first `m` characters of
the field if they are those of what is kept, and in particular if the field fits into the window together
with the tag behind it. -/
theorem queryField_between {command : String} {m : Nat} {e e₁ : Engine Bench}
    (hasked : (ask command).run e = .ok (.ok ()) e₁) (hwaits : e₁.device.Waits x.bytes)
    (htime : x.InTime e₁) :
    ∃ r e', (queryField command x.start x.stop m).run e = .ok r e' ∧
      (∀ text, r = .ok text ↔ x.Seen ∧ text = String.ofList (x.kept.take m)) ∧
      (r = .ok (String.ofList (x.field.take m)) ↔ x.Seen ∧ x.kept.take m = x.field.take m) ∧
      (x.Seen → x.field.length + x.stop.length ≤ windowSize →
        r = .ok (String.ofList (x.field.take m))) := by
  have hquery : Attempt.wp False (queryField command x.start x.stop m)
      (fun text _ => x.Seen ∧ text = String.ofList (x.kept.take m)) (fun _ _ => ¬ x.Seen) e := by
    rw [queryField_eq, Attempt.wp_bind]
    refine (wp_iff_of_ok hasked).2 ?_
    unfold hearField
    show Attempt.wp False _ _ _ e₁
    rw [Attempt.wp_bind]
    refine Attempt.wp_mono (wp_readField_between x m hwaits htime) (fun text e₂ h => ?_) fun _ _ h => h
    rw [Attempt.wp_bind]
    exact Attempt.wp_lift.2 (wp_record_any fun _ => h)
  obtain ⟨r, e', hrun, hr⟩ := wp_false_iff.1 hquery
  have htext : ∀ text, r = .ok text ↔ x.Seen ∧ text = String.ofList (x.kept.take m) := by
    intro text
    cases r with
    | error f => exact ⟨nofun, fun h => absurd h.1 hr⟩
    | ok text₁ =>
      obtain ⟨hseen, rfl⟩ := hr
      constructor
      · rintro ⟨⟩
        exact ⟨hseen, rfl⟩
      · rintro ⟨-, rfl⟩
        rfl
  refine ⟨r, e', hrun, htext, ?_, fun hseen hfits => ?_⟩
  · rw [htext, String.ofList_inj, eq_comm]
  · rw [htext, x.kept_of_fits hfits]
    exact ⟨hseen, rfl⟩

/-- The answer to the question for the network that was joined. -/
def joined (name : List Char) (ascii_name : name.all (·.toNat < 128)) (unquoted : '"' ∉ name) :
    Between where
  pre := []
  start := utf8 "+CWJAP:\""
  field := name
  stop := utf8 "\""
  post := utf8 ",\"1a:fe:34:00:00:01\",11,-67\r\n\r\nOK\r\n"
  field_ascii c hc := of_decide_eq_true (List.all_eq_true.1 ascii_name c hc)
  start_first := Scan.first_of_head List.not_mem_nil
  stop_first := by
    refine Scan.first_of_head fun hmem => ?_
    obtain ⟨c, hc, heq⟩ := List.mem_map.1 hmem
    have hlow : c.toNat < 128 := of_decide_eq_true (List.all_eq_true.1 ascii_name c hc)
    exact unquoted ((ascii_inj hlow (by decide)).1 heq ▸ hc)

/-- A name that fits into the window. -/
def shortName : Between := joined "energyShield".toList (by decide) (by decide)

/-- A name of 32 bytes, which no name may exceed. -/
def longName : Between := joined "abcdefghijklmnopqrstuvwxyz012345".toList (by decide) (by decide)

/-- An engine whose module gives this response to the next command. -/
def answering (x : Between) : Engine Bench := { device := { replies := [[(0, x.bytes)]] } }

/-- Ask for the network that was joined, and see whether the response waits then. -/
def askAndLook (x : Between) : Run (Engine Bench) (Except Fault Unit × Bool) := do
  let r ← (ask "AT+CWJAP?").run
  let e ← get
  return (r, decide (e.device.rx = x.bytes ∧ e.device.arrivals.entries = [] ∧ e.device.step = 1 ∧
    e.timeouts = {}))

theorem exists_asked {x : Between} (h : value? (askAndLook x) (answering x) = some (.ok (), true)) :
    ∃ e₁, (ask "AT+CWJAP?").run (answering x) = .ok (.ok ()) e₁ ∧ e₁.device.Holds x.bytes ∧
      e₁.timeouts = {} := by
  obtain ⟨r, e₁, hasked, hlast⟩ := value?_bind_eq_some.1 h
  obtain ⟨rfl, hdecide⟩ : r = .ok () ∧ decide (e₁.device.rx = x.bytes ∧
      e₁.device.arrivals.entries = [] ∧ e₁.device.step = 1 ∧ e₁.timeouts = {}) = true := by
    simpa only [Prod.ext_iff] using Option.some.inj hlast
  obtain ⟨hrx, harrivals, hstep, htimeouts⟩ := of_decide_eq_true hdecide
  exact ⟨e₁, hasked, ⟨hrx, congrArg Schedule.mk harrivals, hstep⟩, htimeouts⟩

theorem queryField_shortName :
    ∃ e₁ e', (ask "AT+CWJAP?").run (answering shortName) = .ok (.ok ()) e₁ ∧
      e₁.device.Waits shortName.bytes ∧ shortName.InTime e₁ ∧ shortName.Seen ∧
      (queryField "AT+CWJAP?" shortName.start shortName.stop 31).run (answering shortName) =
        .ok (.ok "energyShield") e' := by
  have hvalue : value? (askAndLook shortName) (answering shortName) = some (.ok (), true) := by
    decide +kernel
  obtain ⟨e₁, hasked, hholds, htimeouts⟩ := exists_asked hvalue
  have htime : shortName.InTime e₁ :=
    .of_short hholds.step (by rw [htimeouts]; decide) (by rw [htimeouts]; decide)
  have hseen : shortName.Seen := ⟨by decide, by decide⟩
  obtain ⟨r, e', hrun, -, -, hwhole⟩ := queryField_between shortName hasked hholds.waits htime
  rw [hwhole hseen (by decide)] at hrun
  exact ⟨e₁, e', hasked, hholds.waits, htime, hseen, hrun⟩

/-- **The front of a long name is lost.** All of the response waits and can be read in time, and no known
tag is complete before either tag is. -/
theorem queryField_longName :
    longName.Seen ∧ ∃ e₁ e', (ask "AT+CWJAP?").run (answering longName) = .ok (.ok ()) e₁ ∧
      e₁.device.Holds longName.bytes ∧
      longName.bytes.length < e₁.timeouts.expectStart.toNat ∧
      longName.bytes.length < e₁.timeouts.expectEnd.toNat ∧
      longName.bytes.length < e₁.timeouts.drain.toNat ∧
      (queryField "AT+CWJAP?" longName.start longName.stop 31).run (answering longName) =
        .ok (.ok "bcdefghijklmnopqrstuvwxyz012345") e' ∧
      "bcdefghijklmnopqrstuvwxyz012345" ≠ String.ofList (longName.field.take 31) := by
  have hseen : longName.Seen := ⟨by decide, by decide⟩
  have hvalue : value? (askAndLook longName) (answering longName) = some (.ok (), true) := by
    decide +kernel
  obtain ⟨e₁, hasked, hholds, htimeouts⟩ := exists_asked hvalue
  have htext : value? (queryField "AT+CWJAP?" longName.start longName.stop 31).run
      (answering longName) = some (.ok "bcdefghijklmnopqrstuvwxyz012345") := by
    decide +kernel
  obtain ⟨e', hrun⟩ := value?_eq_some.1 htext
  exact ⟨hseen, e₁, e', hasked, hholds, by rw [htimeouts]; decide, by rw [htimeouts]; decide,
    by rw [htimeouts]; decide, hrun, by decide⟩

end Engine

end EspWifi
