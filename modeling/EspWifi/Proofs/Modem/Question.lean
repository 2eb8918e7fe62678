import EspWifi.Modem.Query
import EspWifi.Proofs.At.Field
import EspWifi.Proofs.At.Intake

/-!
# Questions

Most queries ask the module for a single field: they send a command, cut the field out of the response and
read it. They differ in the command, in the tags around the field, in the room that there is for it, and in
how it is read.

* `Question`, `Question.ask`: a question, and the query that asks it.
* `Scan.Sees.of_line`, `Scan.first_of_apart`: tags that are seen, and tags of two bytes.
* `Question.Answered.exists_ask`: **what comes of a question that is answered.**
-/

namespace EspWifi

open Run

/-! ### Tags -/

section

variable {cs : List Char} {x y : Char}

theorem ascii_mem_map (hcs : ∀ c ∈ cs, c.toNat < 128) (hx : x.toNat < 128) :
    ascii x ∈ cs.map ascii ↔ x ∈ cs := by
  rw [← utf8_ofList hcs, ascii_mem_utf8 hx]

theorem apart_map_ascii (hcs : ∀ c ∈ cs, c.toNat < 128) (hx : x.toNat < 128) (hy : y.toNat < 128) :
    Apart (ascii x) (ascii y) (cs.map ascii) ↔ Apart x y cs := by
  rw [← utf8_ofList hcs, apart_utf8 hx hy]

end

namespace Scan

variable {c pre : Bytes} {x y : UInt8}

/-- Every known tag ends a line. -/
theorem feed_mem_tag (t : Tag) : ascii '\n' ∈ t.bytes := by
  cases t <;> decide

/-- **A tag is seen behind bytes of one line**, as every known tag ends one. The last byte of the tag may be
the end of that line. -/
theorem Sees.of_line (init : Bytes) {b : UInt8} (hfits : init.length < windowSize)
    (hline : ascii '\n' ∉ c ++ init) : Sees c (init ++ [b]) where
  ne_nil := List.append_ne_nil_of_right_ne_nil _ (List.cons_ne_nil b [])
  fits := by
    rw [List.length_append]
    exact hfits
  unknown p hp hne t ht := by
    have hp' : p <+: c ++ init := by
      rw [← List.append_assoc] at hp hne
      rcases List.prefix_concat_iff.1 hp with rfl | hp
      · exact absurd rfl hne
      · exact hp
    exact hline (hp'.subset (ht.subset (feed_mem_tag t)))

/-- **A tag of two bytes is complete where they first are neighbours.** -/
theorem first_of_apart (hne : x ≠ y) (h : Apart x y pre) :
    ∀ p, p <+: pre ++ [x, y] → p ≠ pre ++ [x, y] → ¬ [x, y] <:+ p := by
  intro p hp hpne hsuf
  have hapart : Apart x y (pre ++ [x]) := by
    rw [apart_append]
    refine ⟨h, .singleton x, ?_⟩
    rintro ⟨-, hy⟩
    exact hne (Option.some.inj hy)
  have hp' : p <+: pre ++ [x] := by
    rcases List.prefix_concat_iff.1 (by simpa using hp : p <+: (pre ++ [x]) ++ [y]) with rfl | hp
    · exact absurd (by simp) hpne
    · exact hp
  exact apart_iff.1 hapart (hsuf.isInfix.trans hp'.isInfix)

end Scan

/-! ### Questions -/

/-- **A question for a single field.** -/
structure Question (α : Type) where
  /-- What is noted in the log. -/
  note : String
  command : String
  start : String
  stop : String
  /-- How many characters of the field are read. -/
  room : Nat
  read : String → Option α

namespace Question

open Driver

variable {α σ : Type} [Device σ] (q : Question α)

/-- Send the question. -/
def inquire : Attempt (Driver σ) Unit := do
  logDebug q.note
  tryEngine (Engine.ask q.command)

/-- **Ask the question**, and read the field of the response. -/
def ask : Attempt (Driver σ) α := do
  logDebug q.note
  orParse (q.read (← query q.command q.start q.stop q.room))

/-- What is made of a field. -/
def result (field : List Char) : Except Fault α :=
  match q.read (String.ofList (field.take q.room)) with
  | some a => .ok a
  | none => .error .parse

variable {q} {field : List Char} {a : α}

theorem result_eq_ok_iff :
    q.result field = .ok a ↔ q.read (String.ofList (field.take q.room)) = some a := by
  unfold result
  cases q.read (String.ofList (field.take q.room)) with
  | none => simp
  | some b => simp

theorem result_of_some (hroom : field.length ≤ q.room) (hread : q.read (String.ofList field) = some a) :
    q.result field = .ok a := by
  rw [result, List.take_of_length_le hroom, hread]

theorem result_of_none (hroom : field.length ≤ q.room) (hread : q.read (String.ofList field) = none) :
    q.result field = .error .parse := by
  rw [result, List.take_of_length_le hroom, hread]

end Question

/-- **There is time for `n` bytes**: they can be read before the timeouts are over, and these pass. -/
structure Engine.HasTime (e : Engine Bench) (n : Nat) : Prop where
  start : n * e.device.step < e.timeouts.expectStart.toNat
  stop : n * e.device.step < e.timeouts.expectEnd.toNat
  start_passes : e.device.Passes e.timeouts.expectStart
  stop_passes : e.device.Passes e.timeouts.expectEnd
  post_passes : e.device.Passes e.timeouts.drain

theorem Between.InTime.of_hasTime {x : Between} {e : Engine Bench} (h : e.HasTime x.bytes.length) :
    x.InTime e := by
  have hle {n : Nat} (hn : n ≤ x.bytes.length) : n * e.device.step ≤ x.bytes.length * e.device.step :=
    Nat.mul_le_mul_right _ hn
  refine ⟨(hle ?_).trans_lt h.start, (hle ?_).trans_lt h.stop, h.start_passes, h.stop_passes,
    h.post_passes⟩
  · exact (List.prefix_append _ _).length_le
  · unfold Between.bytes
    simp only [List.length_append]
    omega

/-- **A field between two tags that are seen is heard**, as much of it as the window keeps. -/
theorem Engine.wp_hearField_between {x : Between} {e : Engine Bench} (m : Nat)
    (hwaits : e.device.Waits x.bytes) (htime : e.HasTime x.bytes.length) (hseen : x.Seen) :
    Attempt.wp False (hearField x.start x.stop m)
      (fun text _ => text = String.ofList (x.kept.take m)) (fun _ _ => False) e := by
  have hread := wp_readField_between x m hwaits (.of_hasTime htime)
  unfold hearField
  rw [Attempt.wp_bind]
  refine Attempt.wp_mono hread (fun text e' htext => ?_) fun _ _ hunseen => hunseen hseen
  rw [Attempt.wp_bind]
  exact Attempt.wp_lift.2 (wp_record_any fun _ => htext.2)

namespace Question

open Driver

variable {α : Type} {q : Question α} {d d₁ : Driver Bench} {reply : Bytes} {x : Between}

/-- **The question was sent, and the response waits**; there is time to read it. -/
structure Answered (q : Question α) (reply : Bytes) (d d₁ : Driver Bench) : Prop where
  asked : q.inquire.run d = .ok (.ok ()) d₁
  waits : d₁.engine.device.Waits reply
  time : d₁.engine.HasTime reply.length

/-- **What comes of a question that is answered.** If both tags are seen, the query returns what is made of
what the window keeps of the field. -/
theorem Answered.exists_ask (h : q.Answered x.bytes d d₁) (hstart : x.start = utf8 q.start)
    (hstop : x.stop = utf8 q.stop) (hseen : x.Seen) :
    ∃ d', q.ask.run d = .ok (q.result x.kept) d' := by
  have hfield := Engine.wp_hearField_between q.room h.waits h.time hseen
  rw [hstart, hstop] at hfield
  -- the query is the question, and then the field is heard
  have hask : Attempt.wp False (do
      q.inquire
      orParse (q.read (← tryEngine (Engine.hearField (utf8 q.start) (utf8 q.stop) q.room))))
      (fun a _ => q.result x.kept = .ok a) (fun f _ => q.result x.kept = .error f) d := by
    rw [Attempt.wp_bind]
    refine (wp_iff_of_ok h.asked).2 ?_
    show Attempt.wp False _ _ _ d₁
    rw [Attempt.wp_bind, wp_tryEngine]
    refine Attempt.wp_mono hfield ?_ fun _ _ hnever => hnever.elim
    rintro _ e rfl
    unfold result
    cases q.read (String.ofList (x.kept.take q.room)) with
    | some a => exact rfl
    | none => exact rfl
  have heq : Attempt.wp False q.ask (fun a _ => q.result x.kept = .ok a)
      (fun f _ => q.result x.kept = .error f) d := by
    unfold inquire at hask
    unfold ask query
    simpa only [Engine.queryField_eq, Attempt.wp_bind, wp_tryEngine] using hask
  obtain ⟨r, d', hrun, hr⟩ := wp_false_iff.1 heq
  refine ⟨d', hrun.trans ?_⟩
  cases r with
  | ok a => rw [hr]
  | error f => rw [hr]

/-- A short question to a module that answers it at once. -/
theorem exists_answered (reply : Bytes)
    (h : shown? q.inquire.run (fun r d => (r, decide (d.engine.device.rx = reply ∧
      d.engine.device.arrivals.entries = [] ∧ d.engine.device.step = 1 ∧ d.engine.timeouts = {}))) d =
        some (.ok (), true))
    (hshort : reply.length < 500) : ∃ d₁, q.Answered reply d d₁ := by
  obtain ⟨r, d₁, hrun, hshown⟩ := shown?_eq_some.1 h
  obtain ⟨rfl, hdecide⟩ := Prod.mk.inj hshown
  obtain ⟨hrx, harrivals, hstep, htimeouts⟩ := of_decide_eq_true hdecide
  have hpasses : ∀ timeout, d₁.engine.device.Passes timeout := Bench.passes_of_step_one hstep
  have htime : d₁.engine.HasTime reply.length := by
    constructor
    case start =>
      rw [hstep, htimeouts, Nat.mul_one]
      exact hshort.trans (by decide)
    case stop =>
      rw [hstep, htimeouts, Nat.mul_one]
      exact hshort
    all_goals exact hpasses _
  exact ⟨d₁, hrun, ⟨hrx, congrArg Schedule.mk harrivals⟩, htime⟩

end Question

end EspWifi
