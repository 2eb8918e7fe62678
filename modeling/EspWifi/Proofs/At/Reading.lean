import EspWifi.Proofs.At.Scan
import EspWifi.Proofs.Session.Clock

/-!
# Reading what waits

The reads of the command engine on a settled bench. Each of them is described by what it takes off
the bytes that wait and what it makes of them; the time it takes does not show.

* `Engine.wp_await_of`: the rule for waits, on any bench.
* `Engine.wp_awaitByte`, `Engine.wp_awaitPeek`: a single byte.
* `Engine.wp_awaitTag`: a scan, which ends at the first verdict or when nothing is left.
* `Engine.wp_skipPast_found`, `Engine.wp_skipPast_missing`: the scan for one tag.
-/

namespace EspWifi

open Run

variable {cut : Prop} {w : Bytes} {e : Engine Bench}

namespace Engine

theorem wp_record {Q : Unit → Engine Bench → Prop} {level : Level} {message : String}
    (h : e.device.Holds w)
    (hQ : ∀ b : Bench, b.Holds w → b.now = e.device.now → Q () { e with device := b }) :
    wp cut (record level message) Q e := by
  show wp cut (onDevice (Device.record level message)) Q e
  rw [wp_onDevice]
  exact h.record hQ

/-- **The rule for waits.** `I k` holds before the `k`-th try and `J k` after one that gave nothing. By then
the clock was looked at `k` times, and the next look ends the wait or does not. -/
theorem wp_await_of {op : Run Bench (Option UInt8)} {timeout : UInt32} {I J : Nat → Bench → Prop}
    {Q : Option UInt8 → Engine Bench → Prop} (hstart : I 1 e.device.tick.2)
    (htry : ∀ k b, I k b → e.device.After b k → wp False op (fun r b' => b.After b' 0 ∧
      r.elim (J k b') fun x => Q (some x) { e with device := b' }) b)
    (hover : ∀ k b, J k b → e.device.After b k → timeout ≤ e.device.shows k - e.device.now →
      Q none { e with device := b.tick.2 })
    (hnext : ∀ k b, J k b → e.device.After b k → ¬ timeout ≤ e.device.shows k - e.device.now →
      I (k + 1) b.tick.2) :
    wp (¬ e.device.Passes timeout) (await op timeout) Q e := by
  unfold await settling
  rw [wp_bind, wp_onDevice, Bench.wp_millis]
  simp only [wp_bind, wp_get, wp_pure]
  -- none of the looks in the rounds before this one showed the timeout
  refine wp_loop (I := fun n () e' => ∃ k b, e' = { e with device := b } ∧
    timeout.toNat + 2 ≤ n + k ∧ I k b ∧ e.device.After b k ∧
    Unpassed e.device.shows e.device.now timeout k) ?_ ?_ _ _ _
    ⟨1, _, rfl, by omega, hstart, .tick (.refl _), .first⟩
  · rintro ⟨⟩ _ ⟨k, b, -, hrounds, -, -, hunpassed⟩ hpasses
    have hle := hunpassed.le hpasses.first
    omega
  · rintro n ⟨⟩ _ ⟨k, b, rfl, hrounds, hI, hafter, hunpassed⟩
    rw [wp_bind, wp_onDevice]
    refine wp_mono (wp_weaken (htry k b hI hafter) False.elim) ?_
    rintro r b' ⟨hsame, hr⟩
    cases r with
    | some x => exact hr
    | none =>
      have hbefore := hafter.still hsame
      simp only [wp_bind, wp_onDevice, elapsed, Bench.wp_millis, wp_pure]
      rw [hbefore.now, wp_ite]
      split
      case isTrue hshown => exact hover k b' hr hbefore hshown
      case isFalse hshown =>
        exact ⟨k + 1, _, rfl, by omega, hnext k b' hr hbefore hshown, hbefore.tick,
          hunpassed.next hshown⟩

/-- A wait gives what its first try gives if anything waits, and nothing else otherwise. -/
theorem wp_await_waits {op : Run Bench (Option UInt8)} {left : Bytes}
    (hop : ∀ b : Bench, b.Waits w →
      wp False op (fun r b' => r = w.head? ∧ b'.Waits left ∧ b.After b' 0) b)
    (hleft : w = [] → left = []) {timeout : UInt32} {Q : Option UInt8 → Engine Bench → Prop}
    (h : e.device.Waits w)
    (hQ : ∀ b : Bench, b.Waits left → b.step = e.device.step → Q w.head? { e with device := b }) :
    wp (¬ e.device.Passes timeout) (await op timeout) Q e := by
  refine wp_await_of (I := fun _ b => b.Waits w) (J := fun _ b => w = [] ∧ b.Waits w)
    ⟨h.rx, h.arrivals⟩ ?_ ?_ ?_
  · intro k b hb hafter
    refine wp_mono (hop b hb) ?_
    rintro r b' ⟨rfl, hb', hsame⟩
    refine ⟨hsame, ?_⟩
    cases w with
    | nil => exact ⟨rfl, hleft rfl ▸ hb'⟩
    | cons x w => exact hQ b' hb' (hafter.still hsame).step
  · rintro k b ⟨rfl, hb⟩ hafter -
    obtain rfl := hleft rfl
    exact hQ b.tick.2 ⟨hb.rx, hb.arrivals⟩ hafter.step
  · rintro k b ⟨-, hb⟩ - -
    exact ⟨hb.rx, hb.arrivals⟩

/-- **A wait for a byte takes the first byte that waits.** It fails only if there is none. -/
theorem wp_awaitByte_waits {timeout : UInt32} {Q : Option UInt8 → Engine Bench → Prop}
    (h : e.device.Waits w)
    (hQ : ∀ b : Bench, b.Waits w.tail → b.step = e.device.step →
      Q w.head? { e with device := b }) :
    wp (¬ e.device.Passes timeout) (awaitByte timeout) Q e := by
  rw [awaitByte_eq]
  refine wp_await_waits (fun b hb => ?_) (by rintro rfl; rfl) h hQ
  rw [Bench.wp_read, hb.deliver, hb.rx]
  have hsame := Bench.After.refl b
  exact ⟨rfl, ⟨rfl, hb.arrivals⟩, ⟨hsame.ticks, rfl, rfl⟩⟩

/-- **A look at the next byte leaves it where it is.** It fails only if there is none. -/
theorem wp_awaitPeek_waits {timeout : UInt32} {Q : Option UInt8 → Engine Bench → Prop}
    (h : e.device.Waits w)
    (hQ : ∀ b : Bench, b.Waits w → b.step = e.device.step → Q w.head? { e with device := b }) :
    wp (¬ e.device.Passes timeout) (awaitPeek timeout) Q e := by
  rw [awaitPeek_eq]
  refine wp_await_waits (fun b hb => ?_) id h hQ
  rw [Bench.wp_peek, hb.deliver, hb.rx]
  exact ⟨rfl, hb, Bench.After.refl b⟩

/-- On a settled bench all timeouts pass, so no wait is cut short. -/
theorem wp_settled {α : Type} {m : Run (Engine Bench) α} {timeout : UInt32} {Q : α → Engine Bench → Prop}
    (h : e.device.Holds w) (hm : wp (¬ e.device.Passes timeout) m Q e) : wp cut m Q e :=
  wp_weaken hm fun hnever => absurd (Bench.passes_of_step_one h.step timeout) hnever

theorem wp_awaitByte {timeout : UInt32} {Q : Option UInt8 → Engine Bench → Prop}
    (h : e.device.Holds w) (hQ : ∀ b : Bench, b.Holds w.tail → Q w.head? { e with device := b }) :
    wp cut (awaitByte timeout) Q e := by
  refine wp_settled h (wp_awaitByte_waits h.waits fun b hb hstep => ?_)
  exact hQ b (hb.holds (hstep.trans h.step))

theorem wp_awaitPeek {timeout : UInt32} {Q : Option UInt8 → Engine Bench → Prop}
    (h : e.device.Holds w) (hQ : ∀ b : Bench, b.Holds w → Q w.head? { e with device := b }) :
    wp cut (awaitPeek timeout) Q e := by
  refine wp_settled h (wp_awaitPeek_waits h.waits fun b hb hstep => ?_)
  exact hQ b (hb.holds (hstep.trans h.step))

/-- **A scan takes bytes up to the first verdict.** Without one it takes what waits, or as many bytes
as it has time for. -/
theorem wp_awaitTag {timeout : UInt32} {tag : Option Bytes} {known : Bool}
    {Q : Scan → Engine Bench → Prop} (h : e.device.Holds w)
    (hit : ∀ c x rest s (b : Bench), w = c ++ x :: rest → Scan.Silent tag known c →
      Scan.of (c ++ [x]) tag known = some s → b.Holds rest →
      Q s { e with device := b, window := .last (c ++ [x]) })
    (miss : ∀ c rest (b : Bench), w = c ++ rest → Scan.Silent tag known c →
      (rest = [] ∨ timeout.toNat ≤ c.length + 1) → b.Holds rest →
      Q .timedOut { e with device := b, window := .last c }) :
    wp cut (awaitTag timeout tag known) Q e := by
  unfold awaitTag settling backlog
  rw [wp_bind, wp_modify, wp_bind, wp_onDevice]
  refine h.millis fun b₁ h₁ hnow => ?_
  simp only [wp_bind, wp_get, wp_pure]
  -- at the `k`-th look all bytes but those of the first `k - 1` rounds wait, or none waits
  refine wp_loop (I := fun n () e' => ∃ b k c rest,
    e' = { e with device := b, window := .last c } ∧ b.Holds rest ∧ w = c ++ rest ∧
    Scan.Silent tag known c ∧ (rest = [] ∨ k = c.length + 1) ∧
    timeout.toNat + 2 ≤ k + n ∧ k ≤ max 1 timeout.toNat ∧ b.now - e.device.now = k.toUInt32)
    ?_ ?_ _ _ _ ⟨b₁, 1, [], w, rfl, h₁, rfl, .nil, .inr rfl, by omega, by omega, ?_⟩
  · rintro _ _ ⟨b, k, c, rest, -, -, -, -, -, hk, hle, -⟩
    omega
  · rintro n ⟨⟩ _ ⟨b, k, c, rest, rfl, hb, hw, hc, hkc, hk, hle, hnow⟩
    rw [wp_bind, wp_onDevice]
    refine hb.elapsed hnow fun b' hb' hk' => ?_
    rw [wp_ite]
    split
    case isFalse hge =>
      rw [Bench.lt_timeout_iff hle] at hge
      rw [wp_bind]
      refine wp_record (w := rest) hb' fun b'' hb'' _ => ?_
      exact miss c rest b'' hw hc (hkc.imp_right (by omega)) hb''
    case isTrue hlt =>
      rw [Bench.lt_timeout_iff hle] at hlt
      rw [wp_bind, wp_onDevice]
      refine hb'.read fun b'' hb'' hnow' => ?_
      cases rest with
      | nil =>
        exact ⟨b'', k + 1, c, [], rfl, hb'', hw, hc, .inl rfl, by omega, by omega, hnow' ▸ hk'⟩
      | cons x rest =>
        simp only [List.head?_cons, wp_bind, wp_modify, wp_get]
        refine wp_record (w := rest) hb'' fun b₃ hb₃ hnow₃ => ?_
        rw [← Window.last_append]
        cases hv : Scan.verdict (.last (c ++ [x]) : Window windowSize) tag known with
        | some s => exact hit c x rest s b₃ hw hc hv hb₃
        | none =>
          refine ⟨b₃, k + 1, c ++ [x], rest, rfl, hb₃, by simp [hw], hc.append hv, ?_, by omega,
            by omega, ?_⟩
          · refine .inr ?_
            rcases hkc with h | h
            · exact absurd h (by simp)
            · simp [h]
          · rw [hnow₃, hnow', hk']
  · rw [hnow]
    grind

/-- **The scan for one tag skips what comes before it and leaves what comes after it.** -/
theorem wp_skipPast_found {timeout : UInt32} {a : UInt8} {pre tag rest : Bytes}
    {Q : Bool → Engine Bench → Prop} (h : e.device.Holds (pre ++ a :: tag ++ rest))
    (hpre : a ∉ pre) (hlen : (a :: tag).length ≤ windowSize)
    (htime : pre.length + (a :: tag).length < timeout.toNat)
    (hQ : ∀ (b : Bench) (window : Window windowSize), b.Holds rest →
      Q true { e with device := b, window := window }) :
    wp cut (skipPast (a :: tag) timeout) Q e := by
  unfold skipPast
  rw [wp_bind]
  refine wp_awaitTag h ?_ ?_
  · intro c x rest' s b hw hc hs hb
    have hw' : pre ++ a :: tag ++ rest = c ++ [x] ++ rest' := by simpa using hw
    obtain ⟨-, rfl⟩ := hc.eq_of_found hlen (by simp) (Scan.first_of_head hpre) hs rfl hw'
    obtain rfl := Scan.eq_found_of hs
    exact hQ _ _ hb
  · intro c rest' b hw hc hend _
    -- a scan that read all of it, or for so long, has read the tag
    exfalso
    have hle : pre ++ a :: tag <+: c := by
      refine List.prefix_of_prefix_length_le (hw ▸ List.prefix_append _ _)
        (List.prefix_append c rest') ?_
      rcases hend with rfl | hend
      · have := congrArg List.length hw
        simp only [List.length_append, List.length_nil] at this ⊢
        omega
      · rw [List.length_append]
        omega
    have hfound : Scan.of (pre ++ a :: tag) (some (a :: tag)) false = some .found :=
      (Scan.of_eq_found hlen).2 ⟨by simp, List.suffix_append _ _⟩
    rw [hc _ hle] at hfound
    exact absurd hfound (by simp)

/-- A scan for a tag that cannot begin takes all that waits. -/
theorem wp_skipPast_missing {timeout : UInt32} {a : UInt8} {tag : Bytes}
    {Q : Bool → Engine Bench → Prop} (h : e.device.Holds w) (hw : a ∉ w)
    (htime : w.length + 1 < timeout.toNat)
    (hQ : ∀ (b : Bench) (window : Window windowSize), b.Holds [] →
      Q false { e with device := b, window := window }) :
    wp cut (skipPast (a :: tag) timeout) Q e := by
  unfold skipPast
  rw [wp_bind]
  refine wp_awaitTag h ?_ ?_
  · intro c x rest s b hc _ hs _
    exfalso
    have hsub : c ++ [x] <+: w := ⟨rest, by simpa using hc.symm⟩
    have hnone := Scan.silent_of_head (t := tag) hw _ hsub
    rw [hs] at hnone
    exact absurd hnone (by simp)
  · intro c rest b hc _ hend hb
    have hrest : rest = [] := by
      refine hend.resolve_right fun hle => ?_
      have := congrArg List.length hc
      rw [List.length_append] at this
      omega
    subst hrest
    exact hQ _ _ hb

end Engine

end EspWifi
