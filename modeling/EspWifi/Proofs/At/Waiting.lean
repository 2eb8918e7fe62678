import EspWifi.Proofs.At.NaiveScan
import EspWifi.Proofs.At.Reading

/-!
# Answers that wait

An answer that waits on a bench is read at one byte for each look at the clock, whatever the step of the
clock. So a scan that the waiting bytes decide is not cut short if they are read before its time is over.

* `Scan.decided_found`: a scan is decided at the first place where its tag is complete.
* `Scan.Cut`: places that no tag reaches over, where bytes can be scanned part by part.
* `Engine.wp_awaitTag_waits`, `Engine.wp_awaitTag_holds`: **a scan reads the bytes that decide it**.
-/

namespace EspWifi

open Run

variable {cut : Prop}

/-- **A scan is decided at the first place where its tag is complete**, if no known tag is complete
before it. -/
theorem Scan.decided_found {tag c : Bytes} {known : Bool} (hne : tag ≠ [])
    (hlen : tag.length ≤ windowSize) (htag : tag <:+ c)
    (first : ∀ p, p <+: c → p ≠ c → ¬ tag <:+ p)
    (unknown : known = true → ∀ p, p <+: c → p ≠ c → ∀ t : Tag, ¬ t.bytes <:+ p) :
    Decided (some tag) known c .found where
  verdict := of_eq_found_iff.2 ⟨tag, rfl, hne, hlen, htag⟩
  first := by
    intro p hp hpc
    refine of_eq_none_iff.2 ?_
    rintro (⟨_, ⟨⟩, -, -, hsuf⟩ | ⟨hknown, t, ht⟩)
    · exact first p hp hpc hsuf
    · exact unknown hknown p hp hpc t ht

namespace Scan

variable {tag : Option Bytes} {known : Bool} {c g q : Bytes} {s : Scan}

/-- The tags that a scan looks for, if it looks for known tags. -/
def sought (tag : Option Bytes) : List Bytes := tag.toList ++ Tag.all.map Tag.bytes

theorem of_eq_none (h : ∀ t ∈ sought tag, ¬ t <:+ c) : of c tag known = none := by
  refine of_eq_none_iff.2 ?_
  rintro (⟨t, rfl, -, -, ht⟩ | ⟨-, t, ht⟩)
  · exact h t (by simp [sought]) ht
  · exact h _ (List.mem_append_right _ (List.mem_map_of_mem t.mem_all)) ht

/-- Bytes are decided if none of their proper beginnings has a verdict. -/
theorem decided_of_inits (hs : of c tag known = some s)
    (h : ∀ p ∈ c.inits, p ≠ c → of p tag known = none) : Decided tag known c s :=
  ⟨hs, fun p hp hne => h p ((List.mem_inits p c).2 hp) hne⟩

/-- **No proper beginning of `q` is where a tag ends**, whatever comes before it. -/
def Inert (tag : Option Bytes) (q : Bytes) : Prop :=
  ∀ p ∈ q.inits, p ≠ [] → p ≠ q → ∀ t ∈ sought tag, ¬ t <:+ p ∧ ¬ p <:+ t

instance (tag : Option Bytes) (q : Bytes) : Decidable (Inert tag q) := by
  unfold Inert
  infer_instance

/-- A tag that ends where `p` ends is a part of `p`, or has `p` for a part. -/
theorem not_suffix_append {g p t : Bytes} (h : ¬ t <:+ p) (h' : ¬ p <:+ t) : ¬ t <:+ g ++ p := by
  intro ht
  rcases List.suffix_or_suffix_of_suffix ht (List.suffix_append g p) with h₁ | h₁
  · exact h h₁
  · exact h' h₁

/-- **A scan goes on through bytes without a verdict and is decided by what comes after them.** -/
theorem Silent.decided_append (hg : Silent tag known g) (hq : Inert tag q)
    (hs : of (g ++ q) tag known = some s) : Decided tag known (g ++ q) s where
  verdict := hs
  first := by
    intro p hp hne
    rcases List.prefix_or_prefix_of_prefix hp (List.prefix_append g q) with h | ⟨p', rfl⟩
    · exact hg p h
    · have hp' : p' <+: q := (List.prefix_append_right_inj g).1 hp
      by_cases hnil : p' = []
      · rw [hnil, List.append_nil]
        exact hg g (List.prefix_refl g)
      · refine of_eq_none fun t ht => ?_
        have := hq p' ((List.mem_inits p' q).2 hp') hnil (fun h => hne (by rw [h])) t ht
        exact not_suffix_append this.1 this.2

/-! ### Places that no tag reaches over -/

variable {c' : Bytes} {b : UInt8}

/-- Bytes that end with the same tags have the same verdict. -/
theorem of_congr (h : ∀ t ∈ sought tag, t <:+ c ↔ t <:+ c') : of c tag known = of c' tag known := by
  classical
  have hcompletes : Completes tag c ↔ Completes tag c' := by
    refine exists_congr fun t => and_congr_right fun htag => ?_
    rw [h t (by simp [sought, htag])]
  have hknown : known? c = known? c' := by
    have hsame (t : Tag) : t.bytes <:+ c ↔ t.bytes <:+ c' :=
      h _ (List.mem_append_right _ (List.mem_map_of_mem t.mem_all))
    unfold known?
    simp only [hsame]
  rw [of_eq, of_eq, hknown, if_congr hcompletes rfl rfl]

/-- **No tag reaches over the place between `g` and `q`**: one that is complete behind it began there. -/
def Cut (tag : Option Bytes) (g q : Bytes) : Prop :=
  ∀ p, p <+: q → p ≠ [] → ∀ t ∈ sought tag, t <:+ g ++ p → t <:+ p

/-- There is such a place before a byte with which a tag can at most begin. -/
theorem Cut.of_head (h : ∀ t ∈ sought tag, b ∉ t.tail) : Cut tag g (b :: q) := by
  intro p hp hne t ht hsuf
  obtain rfl | ⟨p, rfl, -⟩ := List.prefix_cons_iff.1 hp
  · exact absurd rfl hne
  rcases List.suffix_or_suffix_of_suffix hsuf (List.suffix_append g (b :: p)) with hin | ⟨u, rfl⟩
  · exact hin
  · cases u with
    | nil => exact List.suffix_refl _
    | cons x u => exact absurd (List.mem_append_right u List.mem_cons_self) (h _ ht)

/-- There is such a place behind a byte with which a tag can at most end. -/
theorem Cut.of_last (h : ∀ t ∈ sought tag, b ∉ t.dropLast) : Cut tag (g ++ [b]) q := by
  intro p _ hne t ht hsuf
  rcases List.suffix_or_suffix_of_suffix hsuf (List.suffix_append (g ++ [b]) p) with hin | ⟨u, rfl⟩
  · exact hin
  · obtain ⟨v, hv⟩ := hsuf
    have hbefore : v ++ u = g ++ [b] := List.append_cancel_right (by rwa [List.append_assoc])
    obtain rfl | ⟨u, y, rfl⟩ := List.eq_nil_or_concat u
    · exact List.suffix_refl _
    · rw [List.concat_eq_append] at hbefore ht
      rw [← List.append_assoc] at hbefore
      obtain ⟨-, hlast⟩ := List.append_inj' hbefore rfl
      obtain rfl : y = b := by simpa using hlast
      refine absurd ?_ (h _ ht)
      rw [List.dropLast_append_of_ne_nil hne]
      simp

theorem Cut.of_append (h : Cut tag g q) {p : Bytes} (hp : p <+: q) (hne : p ≠ []) :
    of (g ++ p) tag known = of p tag known :=
  of_congr fun t ht => ⟨h p hp hne t ht, fun hsuf => hsuf.trans (List.suffix_append g p)⟩

/-- Behind bytes without a verdict and such a place the verdict is that of what comes there. -/
theorem Silent.of_beginning (hg : Silent tag known g) (h : Cut tag g q) {p : Bytes} (hp : p <+: g ++ q)
    (hlater : ∀ p', p = g ++ p' → p' <+: q → of p' tag known = none) : of p tag known = none := by
  rcases List.prefix_or_prefix_of_prefix hp (List.prefix_append g q) with hshort | ⟨p', rfl⟩
  · exact hg p hshort
  · have hp' : p' <+: q := (List.prefix_append_right_inj g).1 hp
    by_cases hnil : p' = []
    · rw [hnil, List.append_nil]
      exact hg g (List.prefix_refl g)
    · rw [h.of_append hp' hnil]
      exact hlater p' rfl hp'

/-- **Bytes without a verdict are put together** at a place that no tag reaches over. -/
theorem Silent.append_cut (hg : Silent tag known g) (hq : Silent tag known q) (h : Cut tag g q) :
    Silent tag known (g ++ q) := fun _ hp => hg.of_beginning h hp fun p' _ hp' => hq p' hp'

/-- **Bytes that are decided stay so** behind bytes without a verdict and such a place. -/
theorem Silent.decided_cut (hg : Silent tag known g) (hq : Decided tag known q s) (h : Cut tag g q) :
    Decided tag known (g ++ q) s where
  verdict := by
    rw [h.of_append (List.prefix_refl q) (ne_nil_of hq.verdict)]
    exact hq.verdict
  first := by
    intro p hp hne
    refine hg.of_beginning h hp ?_
    rintro p' rfl hp'
    exact hq.first p' hp' fun heq => hne (by rw [heq])

theorem Silent.of_free (h : ∀ t ∈ sought tag, ¬ t <:+: c) : Silent tag known c := fun _ hp =>
  of_eq_none fun t ht hsuf => h t ht (hsuf.isInfix.trans hp.isInfix)

/-- Bytes in which no tag is have no verdict before the line that they are on ends. -/
theorem of_line_beginning (hfree : ∀ t ∈ sought tag, ¬ t <:+: c)
    (hreturn : ∀ t ∈ sought tag, t.getLast? ≠ some (ascii '\r')) {p : Bytes}
    (hp : p <+: c ++ utf8 lineEnd) (hne : p ≠ c ++ utf8 lineEnd) : of p tag known = none := by
  have hend : c ++ utf8 lineEnd = (c ++ [ascii '\r']) ++ [ascii '\n'] := by
    rw [List.append_assoc]
    rfl
  rw [hend] at hp hne
  refine of_eq_none fun t ht hsuf => ?_
  rcases List.prefix_concat_iff.1 hp with rfl | hp
  · exact hne rfl
  rcases List.prefix_concat_iff.1 hp with rfl | hp
  · have hnil : t ≠ [] := fun hnil => hfree t ht (hnil ▸ List.nil_infix)
    obtain ⟨v, hv⟩ := hsuf
    refine hreturn t ht ?_
    rw [← List.getLast?_append_of_ne_nil v hnil, hv, List.getLast?_concat]
  · exact hfree t ht (hsuf.isInfix.trans hp.isInfix)

end Scan

namespace Engine

variable {e : Engine Bench} {timeout : UInt32} {tag : Option Bytes} {known : Bool} {c rest : Bytes}
  {s : Scan}

theorem wp_record_waits {b : Bench} {w : Bytes} {k : Nat} (h : e.device.Waits w)
    (hafter : b.After e.device k) {level : Level} {message : String} {Q : Unit → Engine Bench → Prop}
    (hQ : ∀ b', b'.Waits w → b.After b' k → Q () { e with device := b' }) :
    wp cut (MonadLog.record level message) Q e := by
  show wp cut (onDevice (Device.record level message)) Q e
  rw [wp_onDevice]
  exact h.record hafter hQ

/-- **A scan reads the bytes that decide it**, if its time is not over before, and leaves what comes
after them. -/
theorem wp_awaitTag_waits {Q : Scan → Engine Bench → Prop} (h : e.device.Waits (c ++ rest))
    (hc : Scan.Decided tag known c s) (htime : c.length * e.device.step < timeout.toNat)
    (hQ : ∀ b : Bench, b.Waits rest → b.step = e.device.step →
      Q s { e with device := b, window := .last c }) :
    wp cut (awaitTag timeout tag known) Q e := by
  unfold awaitTag settling backlog
  rw [wp_bind, wp_modify, wp_bind, wp_onDevice, Bench.wp_millis]
  simp only [wp_bind, wp_get, wp_pure]
  have hstart : e.device.After { e.device with ticks := e.device.ticks + e.device.step } 1 :=
    ⟨by rw [Nat.one_mul], rfl, rfl⟩
  have hwaits : Bench.Waits { e.device with ticks := e.device.ticks + e.device.step } (c ++ rest) :=
    ⟨h.rx, h.arrivals⟩
  -- `c₁` was read at one byte for each look, and the rest of the deciding bytes waits
  refine wp_loop (I := fun n () e' => ∃ b c₁ c₂, e' = { e with device := b, window := .last c₁ } ∧
    b.Waits (c₂ ++ rest) ∧ e.device.After b (c₁.length + 1) ∧ c₁ ++ c₂ = c ∧ c₂ ≠ [] ∧
    c₂.length ≤ n) ?_ ?_ _ _ _
    ⟨_, [], c, rfl, hwaits, hstart, rfl, Scan.ne_nil_of hc.verdict, ?_⟩
  · rintro _ _ ⟨b, c₁, c₂, -, -, -, -, hne, hle⟩
    exact absurd (List.length_eq_zero_iff.1 (Nat.le_zero.1 hle)) hne
  · rintro n ⟨⟩ _ ⟨b, c₁, c₂, rfl, hb, hafter, rfl, hne, hle⟩
    cases c₂ with
    | nil => exact absurd rfl hne
    | cons x c₂ =>
      rw [wp_bind, wp_onDevice]
      refine hb.elapsed hafter fun b₁ h₁ hafter₁ => ?_
      have hearly : e.device.shows (c₁.length + 1) - e.device.now < timeout := by
        rw [← UInt32.not_le, Bench.le_shows_iff]
        have hmul : (c₁.length + 1) * e.device.step ≤ (c₁ ++ x :: c₂).length * e.device.step :=
          Nat.mul_le_mul_right _ (by rw [List.length_append, List.length_cons]; omega)
        have := timeout.toNat_lt
        rw [Nat.mod_eq_of_lt (by omega)]
        omega
      rw [wp_ite, if_pos hearly, wp_bind, wp_onDevice]
      refine h₁.read hafter₁ fun b₂ h₂ hafter₂ => ?_
      simp only [wp_bind, wp_modify, wp_get]
      refine wp_record_waits h₂ hafter₂ fun b₃ h₃ hafter₃ => ?_
      rw [← Window.last_append]
      cases c₂ with
      | nil =>
        have hs : Scan.verdict (.last (c₁ ++ [x]) : Window windowSize) tag known = some s :=
          hc.verdict
        rw [hs]
        exact hQ b₃ h₃ hafter₃.step
      | cons y c₂ =>
        have hnone : Scan.verdict (.last (c₁ ++ [x]) : Window windowSize) tag known = none :=
          hc.first (c₁ ++ [x]) ⟨y :: c₂, by simp⟩ (by simp)
        rw [hnone]
        refine ⟨b₃, c₁ ++ [x], y :: c₂, rfl, h₃, ?_, by simp, by simp, by simpa using hle⟩
        rwa [List.length_append, List.length_singleton]
  · have hbacklog : Device.backlog { e.device with ticks := e.device.ticks + e.device.step } =
        (c ++ rest).length := hwaits.backlog
    rw [hbacklog, List.length_append]
    omega

/-- The same on a settled bench. -/
theorem wp_awaitTag_holds {Q : Scan → Engine Bench → Prop} (h : e.device.Holds (c ++ rest))
    (hc : Scan.Decided tag known c s) (htime : c.length < timeout.toNat)
    (hQ : ∀ b : Bench, b.Holds rest → Q s { e with device := b, window := .last c }) :
    wp cut (awaitTag timeout tag known) Q e := by
  refine wp_awaitTag_waits h.waits hc (by rwa [h.step, Nat.mul_one]) fun b hb hstep => ?_
  exact hQ b (hb.holds (hstep.trans h.step))

end Engine

end EspWifi
