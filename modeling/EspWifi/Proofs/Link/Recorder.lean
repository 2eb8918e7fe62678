import EspWifi.Board.Pins
import EspWifi.Proofs.Ends
import EspWifi.Proofs.Link.Ledger
import Mathlib.Logic.Relation

/-!
# A record of the link

A recorder stands before a device and writes down what passes over the link: the bytes that were read,
the bytes that were accepted for transmission, and the pauses the program made in between. It changes
nothing, so what holds of the record of every device holds for every behaviour of the module, the line and
the clock.

* `LinkEvent`, `Recorder`: what is written down, and the device that does it.
* `Device.Reaches`: the states a device can get into.
* `Recorder.Grows`: **the events that an operation adds to the record**, wherever it ends.
* `OnEngine`, `Recorder.Adds`: the same for states with an engine in them.
-/

namespace EspWifi

open Run

variable {σ τ υ α β : Type}

/-! ### Events -/

/-- What passes over the link, and the pauses in between. -/
inductive LinkEvent where
  /-- A byte was read. -/
  | heard (b : UInt8)
  /-- A byte was accepted for transmission. -/
  | sent (b : UInt8)
  /-- The program waited without a look at the link. -/
  | paused (ms : UInt32)

namespace LinkEvent

/-- The events of reading some bytes. -/
def hear (c : Bytes) : List LinkEvent := c.map heard

/-- The events of sending some bytes. -/
def send (w : Bytes) : List LinkEvent := w.map sent

def IsHeard : LinkEvent → Prop
  | heard _ => True
  | _ => False

/-- Of no event. -/
def IsNone : LinkEvent → Prop := fun _ => False

/-- Nothing is sent in a quiet event. -/
def IsQuiet : LinkEvent → Prop
  | sent _ => False
  | _ => True

theorem IsHeard.isQuiet {x : LinkEvent} (h : x.IsHeard) : x.IsQuiet := by
  cases x <;> trivial

/-- The bytes that were read. -/
def heardBytes (es : List LinkEvent) : Bytes :=
  es.filterMap fun
    | heard b => some b
    | _ => none

/-- The bytes that were sent. -/
def sentBytes (es : List LinkEvent) : Bytes :=
  es.filterMap fun
    | sent b => some b
    | _ => none

theorem hear_append (c c' : Bytes) : hear (c ++ c') = hear c ++ hear c' := List.map_append

theorem send_append (w w' : Bytes) : send (w ++ w') = send w ++ send w' := List.map_append

theorem isHeard_of_mem_hear {c : Bytes} {x : LinkEvent} (h : x ∈ hear c) : x.IsHeard := by
  obtain ⟨b, -, rfl⟩ := List.mem_map.1 h
  trivial

theorem heardBytes_hear (c : Bytes) : heardBytes (hear c) = c := by
  simp [heardBytes, hear, List.filterMap_map]

theorem heardBytes_send (w : Bytes) : heardBytes (send w) = [] := by
  simp [heardBytes, send, List.filterMap_map]

theorem heardBytes_append (es es' : List LinkEvent) :
    heardBytes (es ++ es') = heardBytes es ++ heardBytes es' := List.filterMap_append

theorem sentBytes_send (w : Bytes) : sentBytes (send w) = w := by
  simp [sentBytes, send, List.filterMap_map]

theorem sentBytes_append (es es' : List LinkEvent) :
    sentBytes (es ++ es') = sentBytes es ++ sentBytes es' := List.filterMap_append

/-- In quiet events nothing is sent. -/
theorem sentBytes_eq_nil {es : List LinkEvent} (h : ∀ x ∈ es, x.IsQuiet) : sentBytes es = [] := by
  refine List.filterMap_eq_nil_iff.2 fun x hx => ?_
  cases x with
  | heard b => rfl
  | sent b => exact (h _ hx).elim
  | paused ms => rfl

theorem sentBytes_hear (c : Bytes) : sentBytes (hear c) = [] :=
  sentBytes_eq_nil fun _ hx => (isHeard_of_mem_hear hx).isQuiet

/-- Of bytes that are sent and an answer to them, the first are what is sent. -/
theorem sentBytes_exchange (w c : Bytes) : sentBytes (send w ++ hear c) = w := by
  rw [sentBytes_append, sentBytes_send, sentBytes_hear, List.append_nil]

/-- Events in which nothing but reading happens are those of the bytes that were read. -/
theorem eq_hear_of_isHeard {es : List LinkEvent} (h : ∀ x ∈ es, x.IsHeard) :
    es = hear (heardBytes es) := by
  induction es with
  | nil => rfl
  | cons x es ih =>
    have hx := h x List.mem_cons_self
    have hes := ih fun y hy => h y (List.mem_cons_of_mem _ hy)
    cases x with
    | heard b => exact congrArg (heard b :: ·) hes
    | sent b => exact hx.elim
    | paused ms => exact hx.elim

end LinkEvent

open LinkEvent

/-! ### What a device can do -/

/-- The state a run ends in, also when it is cut short. -/
def Run.final (m : Run σ α) (s : σ) : σ :=
  match m s with
  | .ok _ s' => s'
  | .error _ s' => s'

theorem Run.final_of_error {m : Run σ α} {f : Halt} {s s' : σ} (h : m s = .error f s') :
    m.final s = s' := by
  unfold final
  rw [h]

theorem Run.ends_final {m : Run σ α} {P : σ → Prop} {s : σ} :
    ends P m (fun _ => P) s ↔ P (m.final s) := by
  unfold ends final
  cases m s <;> rfl

section

variable [Device σ] [Pins σ]

/-- **An operation of the device takes it from one state to another.** -/
inductive Device.Step : σ → σ → Prop
  | available (d : σ) : Step d (final Device.available d)
  | read (d : σ) : Step d (final Device.read d)
  | peek (d : σ) : Step d (final Device.peek d)
  | write (d : σ) (bytes : Bytes) : Step d (final (Device.write bytes) d)
  | takeErrors (d : σ) : Step d (final Device.takeErrors d)
  | millis (d : σ) : Step d (final Device.millis d)
  | delay (d : σ) (ms : UInt32) : Step d (final (Device.delay ms) d)
  | record (d : σ) (level : Level) (message : String) :
    Step d (final (Device.record level message) d)
  | makeOutput (d : σ) (pin : Pin) : Step d (final (Pins.makeOutput pin) d)
  | drive (d : σ) (pin : Pin) (high : Bool) : Step d (final (Pins.drive pin high) d)

/-- The states a device can get into. -/
abbrev Device.Reaches : σ → σ → Prop := Relation.ReflTransGen Device.Step

end

/-! ### The recorder -/

/-- A device and the record of its link. -/
structure Recorder (σ : Type) where
  device : σ
  /-- What passed over the link, in order. -/
  events : List LinkEvent := []

namespace Recorder

/-- An operation of the device behind the recorder. -/
def behind (m : Run σ α) : Run (Recorder σ) α :=
  Run.focus (·.device) (fun d r => { r with device := d }) m

/-- Write down some events. -/
def note (es : List LinkEvent) : Run (Recorder σ) Unit :=
  modify fun r => { r with events := r.events ++ es }

theorem wp_behind (m : Run σ α) (r : Recorder σ) :
    wp True (behind m) (fun _ r' => heardBytes r'.events = heardBytes r.events ++ []) r := by
  rw [behind, wp_focus]
  exact wp_any fun _ _ => (List.append_nil _).symm

instance [Device σ] : Device (Recorder σ) where
  available := behind Device.available
  read := do
    let byte ← behind Device.read
    note (hear byte.toList)
    return byte
  peek := behind Device.peek
  write bytes := do
    let n ← behind (Device.write bytes)
    note (send (bytes.take n))
    return n
  takeErrors := behind Device.takeErrors
  millis := behind Device.millis
  delay ms := do
    behind (Device.delay ms)
    note [paused ms]
  record level message := behind (Device.record level message)
  backlog r := Device.backlog r.device
  settling r := Device.settling r.device

instance [Pins σ] : Pins (Recorder σ) where
  makeOutput pin := behind (Pins.makeOutput pin)
  drive pin high := behind (Pins.drive pin high)

section

variable [Device σ]

theorem read_eq : (Device.read : Run (Recorder σ) (Option UInt8)) = (do
    let byte ← behind Device.read
    note (hear byte.toList)
    return byte) := rfl

theorem write_eq (bytes : Bytes) : (Device.write bytes : Run (Recorder σ) Nat) = (do
    let n ← behind (Device.write bytes)
    note (send (bytes.take n))
    return n) := rfl

theorem delay_eq (ms : UInt32) : (Device.delay ms : Run (Recorder σ) Unit) = (do
    behind (Device.delay ms)
    note [paused ms]) := rfl

/-- **The record holds the bytes that were read**, as a ledger. -/
def ledger : Ledger (Recorder σ) where
  moves r r' c _ := heardBytes r'.events = heardBytes r.events ++ c
  refl _ := (List.append_nil _).symm
  trans h h' := by rw [h', h, List.append_assoc]
  available := wp_behind _
  read r := by
    rw [read_eq, wp_bind, behind, wp_focus]
    refine wp_any fun byte d => ?_
    rw [wp_bind, note, wp_modify, wp_pure, heardBytes_append, heardBytes_hear]
  peek := wp_behind _
  write r bytes := by
    rw [write_eq, wp_bind, behind, wp_focus]
    refine wp_any fun n d => ?_
    rw [wp_bind, note, wp_modify, wp_pure, heardBytes_append, heardBytes_send]
  takeErrors := wp_behind _
  millis := wp_behind _
  delay r ms := by
    rw [delay_eq, wp_bind, behind, wp_focus]
    refine wp_any fun _ d => ?_
    rw [note, wp_modify, heardBytes_append]
    rfl
  record r _ _ := wp_behind _ r

end

variable [Device σ] [Pins σ] {P P' : LinkEvent → Prop}

/-- **The record grows by events that satisfy `P`**, and the device does what it can do. -/
structure Grows (P : LinkEvent → Prop) (r r' : Recorder σ) : Prop where
  events : ∃ es, r'.events = r.events ++ es ∧ ∀ x ∈ es, P x
  reaches : Device.Reaches r.device r'.device

theorem Grows.mono {r r' : Recorder σ} (h : r.Grows P r') (hP : ∀ x, P x → P' x) :
    r.Grows P' r' := by
  obtain ⟨es, he, hes⟩ := h.events
  exact ⟨⟨es, he, fun x hx => hP x (hes x hx)⟩, h.reaches⟩

instance : IsPreorder (Recorder σ) (Grows P) where
  refl r := ⟨⟨[], (List.append_nil _).symm, nofun⟩, .refl⟩
  trans r r' r'' h h' := by
    obtain ⟨es, he, hes⟩ := h.events
    obtain ⟨es', he', hes'⟩ := h'.events
    refine ⟨⟨es ++ es', by rw [he', he, List.append_assoc], fun x hx => ?_⟩,
      h.reaches.trans h'.reaches⟩
    rcases List.mem_append.1 hx with hx | hx
    · exact hes x hx
    · exact hes' x hx

/-- An operation behind the recorder adds no events. -/
theorem keeps_behind {m : Run σ α} (h : ∀ d, Device.Step d (m.final d)) :
    Keeps (Grows P) (behind m) := by
  intro r
  rw [behind, ends_focus]
  exact ends_final.2 ⟨⟨[], (List.append_nil _).symm, nofun⟩, .single (h r.device)⟩

/-- Events that are written down satisfy `P` if they are of that kind. -/
theorem keeps_note {es : List LinkEvent} (h : ∀ x ∈ es, P x) :
    Keeps (Grows P) (note es : Run (Recorder σ) Unit) :=
  .modify fun _ => ⟨⟨es, rfl, h⟩, .refl⟩

theorem keeps_available : Keeps (Grows P) (Device.available : Run (Recorder σ) _) :=
  keeps_behind .available

theorem keeps_peek : Keeps (Grows P) (Device.peek : Run (Recorder σ) _) := keeps_behind .peek

theorem keeps_takeErrors : Keeps (Grows P) (Device.takeErrors : Run (Recorder σ) _) :=
  keeps_behind .takeErrors

theorem keeps_millis : Keeps (Grows P) (Device.millis : Run (Recorder σ) _) := keeps_behind .millis

theorem keeps_record (level : Level) (message : String) :
    Keeps (Grows P) (Device.record level message : Run (Recorder σ) _) :=
  keeps_behind fun d => .record d level message

theorem keeps_drive (pin : Pin) (high : Bool) :
    Keeps (Grows P) (Pins.drive pin high : Run (Recorder σ) _) :=
  keeps_behind fun d => .drive d pin high

theorem keeps_read (hP : ∀ b, P (heard b)) : Keeps (Grows P) (Device.read : Run (Recorder σ) _) := by
  refine .bind (keeps_behind .read) fun byte => .bind (keeps_note fun x hx => ?_) fun _ => .pure _
  obtain ⟨b, -, rfl⟩ := List.mem_map.1 hx
  exact hP b

theorem keeps_delay (hP : ∀ ms, P (paused ms)) (ms : UInt32) :
    Keeps (Grows P) (Device.delay ms : Run (Recorder σ) _) := by
  refine .bind (keeps_behind fun d => .delay d ms) fun _ => keeps_note fun x hx => ?_
  obtain rfl := List.mem_singleton.1 hx
  exact hP ms

/-- **A record of what is accepted.** A write that is cut short is not recorded. -/
theorem ends_write (r : Recorder σ) (bytes : Bytes) :
    ends (Grows IsNone r) (Device.write bytes) (fun n r' => r'.events = r.events ++ send (bytes.take n) ∧
      Device.Reaches r.device r'.device) r := by
  rw [write_eq, ends_bind]
  unfold behind
  rw [ends_focus]
  refine ends_mono (ends_final.2 (.single (.write r.device bytes)))
    (fun d h => ⟨⟨[], (List.append_nil _).symm, nofun⟩, h⟩) fun n d h => ?_
  rw [note, ends_bind, ends_modify, ends_pure]
  exact ⟨rfl, h⟩

/-- A pause that is cut short is not recorded. -/
theorem ends_delay (r : Recorder σ) (ms : UInt32) :
    ends (Grows IsNone r) (Device.delay ms)
      (fun _ r' => r.Grows IsQuiet r' ∧ r'.events = r.events ++ [paused ms]) r := by
  have quiet : ∀ x ∈ [paused ms], x.IsQuiet := by
    intro x hx
    obtain rfl := List.mem_singleton.1 hx
    trivial
  rw [delay_eq, ends_bind]
  unfold behind
  rw [ends_focus]
  refine ends_mono (ends_final.2 (.single (.delay r.device ms)))
    (fun d h => ⟨⟨[], (List.append_nil _).symm, nofun⟩, h⟩) fun _ d h => ?_
  exact ⟨⟨⟨_, rfl, quiet⟩, h⟩, rfl⟩

end Recorder

/-! ### States with an engine in them -/

/-- A state with an engine in it. -/
class OnEngine (τ : Type) (σ : outParam Type) where
  engine : τ → Engine σ

instance : OnEngine (Engine σ) σ := ⟨id⟩

instance : OnEngine (Driver σ) σ := ⟨Driver.engine⟩

instance : OnEngine (Wifi σ) σ := ⟨fun w => w.driver.engine⟩

variable [Device σ] [Pins σ] {P P' : LinkEvent → Prop}

/-- **Between two states of the engine events that satisfy `P` were added to the record.** -/
structure Engine.Adds (P : LinkEvent → Prop) (e e' : Engine (Recorder σ)) : Prop where
  device : e.device.Grows P e'.device
  timeouts : e'.timeouts = e.timeouts

namespace Recorder

variable [OnEngine τ (Recorder σ)] [OnEngine υ (Recorder σ)]

/-- What passed over the link so far. -/
def log (t : τ) : List LinkEvent := (OnEngine.engine t).device.events

/-- Between two states events that satisfy `P` were added to the record of the engine. -/
def Adds (P : LinkEvent → Prop) (t t' : τ) : Prop := (OnEngine.engine t).Adds P (OnEngine.engine t')

theorem Adds.mono {t t' : τ} (h : Adds P t t') (hP : ∀ x, P x → P' x) : Adds P' t t' :=
  ⟨h.device.mono hP, h.timeouts⟩

instance : IsPreorder τ (Adds P) where
  refl _ := ⟨refl_of (Grows P) _, rfl⟩
  trans _ _ _ h h' := ⟨trans_of (Grows P) h.device h'.device, h'.timeouts.trans h.timeouts⟩

theorem Adds.exists_log {t t' : τ} (h : Adds P t t') : ∃ es, log t' = log t ++ es ∧ ∀ x ∈ es, P x :=
  h.device.events

/-- An operation that adds no events leaves the record as it is. -/
theorem Adds.log_eq {t t' : τ} (h : Adds IsNone t t') : log t' = log t := by
  obtain ⟨es, hlog, hes⟩ := h.exists_log
  obtain rfl := List.eq_nil_iff_forall_not_mem.2 hes
  rw [hlog, List.append_nil]

/-- What is done to the rest of a state adds nothing. -/
theorem keeps_modify {f : τ → τ}
    (hf : ∀ t, (OnEngine.engine (f t)).device = (OnEngine.engine t).device ∧
      (OnEngine.engine (f t)).timeouts = (OnEngine.engine t).timeouts) :
    Keeps (Adds P) (modify f : Run τ Unit) := by
  refine .modify fun t => ⟨?_, (hf t).2⟩
  rw [(hf t).1]
  exact refl_of (Grows P) _

/-- An operation of the device adds to the record what it adds there. -/
theorem keeps_onDevice {m : Run (Recorder σ) α} (h : Keeps (Grows P) m) :
    Keeps (Adds P) (onDevice m) :=
  h.focus fun _ _ hd => ⟨hd, rfl⟩

end Recorder

end EspWifi
