import FaceTracking.App.Main
import FaceTracking.Theorems.RegistryBookkeeping

/-!
# Devices and threads over the terminal's life

`Program.orderly` is a discipline for programs that can be read off their text:
a thread is started behind the opening of its device and joined before any
device is closed, and no session is left then. `main` keeps it on every path
(`program_orderly`), and a program that keeps it is safe in every interleaving
with its threads and their sessions (`Inv`). The threads that save automatic
snapshots are detached, so no discipline of `main` covers them; there are none
without `autoSnapshotOnFace` (`snapshots_of_play`).
-/

namespace FaceTracking.Main

open Lib

/-! ## A discipline for programs -/

/-- What the statements so far say about a state. -/
structure Known where
  /-- Started and not joined. -/
  live : List Worker
  stopped : List Worker
  /-- There may be sessions. -/
  serving : Bool
  opened : List Device
  /-- A device has been closed. -/
  closing : Bool

namespace Known

def initial : Known := ⟨[], [], false, [], false⟩

/-- No thread and no session is left. -/
def quiet (k : Known) : Bool := k.live.isEmpty && !k.serving

def permits (k : Known) : Statement → Bool
  | .openDevice d => !k.opened.contains d && !k.closing
  | .closeDevice _ => k.quiet
  | .start w => !k.live.contains w && !k.stopped.contains w && !k.closing &&
      w.device.all fun d => k.opened.contains d
  | .join w => k.stopped.contains w
  | .stopAll => k.live.all fun w => !w.isServer
  | .bind _ | .stop _ | .awaitSignal => true
  -- not in the text of a program
  | .stoppingAll => false

def after (k : Known) : Statement → Known
  | .openDevice d => { k with opened := d :: k.opened }
  | .closeDevice _ => { k with closing := true }
  | .start w => { k with live := w :: k.live, serving := k.serving || w.isServer }
  | .stop w => { k with stopped := w :: k.stopped }
  | .join w => { k with live := k.live.filter (· ≠ w) }
  | .stopAll => { k with serving := false }
  | .bind _ | .awaitSignal | .stoppingAll => k

end Known

def Program.orderly : Program → Known → Bool
  | .done, k => k.quiet
  | .step c next, k => k.permits c && next.orderly (k.after c)
  | .attempt .openCamera yes no, k =>
    k.permits (.openDevice .camera) && yes.orderly (k.after (.openDevice .camera)) &&
      no.orderly (k.after (.openDevice .camera))
  | .attempt _ yes no, k => yes.orderly k && no.orderly k

/-- What is left of the text of a program; the first statement may be going on. -/
def Program.text : Program → Program
  | .step .stoppingAll next => .step .stopAll next
  | p => p

theorem Program.orderly_text {p : Program} {k : Known} (h : p.orderly k = true) :
    p.text = p ∧ ∀ next, p ≠ .step .stoppingAll next := by
  cases p with
  | done => exact ⟨rfl, nofun⟩
  | attempt a yes no => exact ⟨rfl, nofun⟩
  | step c next =>
    cases c with
    | stoppingAll => cases h
    | _ => exact ⟨rfl, nofun⟩

/-- `main` keeps the discipline. -/
theorem program_orderly (cfg : Listeners) : (program cfg).orderly .initial = true := by
  obtain ⟨ws, tls⟩ := cfg
  cases ws with
  | true => cases tls <;> decide +kernel
  | false => cases tls <;> decide +kernel

/-! ## Calls in order -/

/-- May the call follow these? A device is opened once, used behind that, and
nothing is opened or used once a device has been closed. -/
def Admits (l : List (Device × Call)) : Device × Call → Prop
  | (d, .opened _) => (∀ ok, (d, .opened ok) ∉ l) ∧ ∀ d', (d', .closed) ∉ l
  | (d, .used) => (∃ ok, (d, .opened ok) ∈ l) ∧ ∀ d', (d', .closed) ∉ l
  | (_, .closed) => True

def Ordered (l : List (Device × Call)) : Prop := ∀ t c u, l = t ++ c :: u → Admits t c

theorem Ordered.append {l : List (Device × Call)} (h : Ordered l) {c : Device × Call}
    (hc : Admits l c) : Ordered (l ++ [c]) := by
  intro t c' u ht
  rcases List.eq_nil_or_concat u with rfl | ⟨u, x, rfl⟩
  · obtain ⟨rfl, hlast⟩ := List.append_inj' ht rfl
    rw [List.singleton_inj] at hlast
    exact hlast ▸ hc
  · rw [List.concat_eq_append, ← List.cons_append, ← List.append_assoc] at ht
    exact h t c' u (List.append_inj' ht rfl).1

end FaceTracking.Main

/-! ## The registry between other threads -/

namespace FaceTracking.Registry

open Lib

def Holder.isReap : Holder → Bool
  | .reaping _ | .reapJoin _ => true
  | _ => false

def Holder.isStop : Holder → Bool
  | .stopping _ | .joining _ | .stopJoin _ => true
  | _ => false

theorem Holder.not_stop {h : Holder} (hreap : h.isReap = true) : h.isStop = false := by
  cases h with
  | reaping | reapJoin => rfl
  | free | stopping | joining | stopJoin => cases hreap

theorem Holder.not_reap {h : Holder} (hstop : h.isStop = true) : h.isReap = false := by
  rw [Bool.eq_false_iff]
  intro hreap
  rw [not_stop hreap] at hstop
  cases hstop

theorem Holder.cases_of (h : Holder) : h = .free ∨ h.isReap = true ∨ h.isStop = true := by
  cases h with
  | free => exact .inl rfl
  | reaping | reapJoin => exact .inr (.inl rfl)
  | stopping | joining | stopJoin => exact .inr (.inr rfl)

/-! ### Operations -/

theorem State.step_adopt {r : State} (hfree : r.holder = .free) : r.step .adopt = some r.adopt := by
  show (if r.holder = .free then some (r.adopt, ([] : List Action)) else none).map Prod.fst = _
  rw [if_pos hfree]
  rfl

theorem State.step_reapFinished {r : State} (hfree : r.holder = .free) :
    r.step .reapFinished = some { r with holder := .reaping 0 } := by
  show (if r.holder = .free then some ({ r with holder := .reaping 0 }, ([] : List Action))
    else none).map Prod.fst = _
  rw [if_pos hfree]
  rfl

theorem State.step_stopAll {r : State} (hfree : r.holder = .free) :
    r.step .stopAll = some { r with holder := .stopping 0 } := by
  show (if r.holder = .free then some ({ r with holder := .stopping 0 }, ([] : List Action))
    else none).map Prod.fst = _
  rw [if_pos hfree]
  rfl

theorem State.step_advance {r r' : State} {as : List Action} (h : r.advance = some (r', as)) :
    r.step .advance = some r' := by
  show r.advance.map Prod.fst = _
  rw [h]
  rfl

/-- No operation adds an entry. -/
theorem State.advance_length {r r' : State} {as : List Action} (h : r.advance = some (r', as)) :
    r'.entries.length ≤ r.entries.length := by
  have hm := moves_of_advance h
  cases hm with
  | adopt hfree =>
    unfold State.advance at h
    rw [hfree] at h
    cases h
  | endedThreadless it e | reaped it e => exact List.length_eraseIdx_le _ _
  | joined i e => exact Nat.le_of_eq List.length_set
  | endStop => exact Nat.zero_le _
  | _ => exact Nat.le_refl _

/-! ### What leads to a state -/

/-- Something that the registry's own steps lead to. -/
def Reached (r : State) : Prop := ∃ es, play State.step .initial es = some r

theorem Reached.step {r r' : State} (h : Reached r) {e : Event} (hstep : r.step e = some r') :
    Reached r' := by
  obtain ⟨es, hes⟩ := h
  refine ⟨es ++ [e], play_append State.step hes ?_⟩
  show (r.step e).bind some = some r'
  rw [hstep]
  rfl

/-- An operation changes nothing about the sessions, and joins the threads that
have returned. -/
theorem State.advance_sessions {r r' : State} {as : List Action} (h : r.advance = some (r', as)) :
    (r'.finished = r.finished ∧ r'.returned = r.returned ∧ r'.adopted = r.adopted) ∧
      ∀ session ∈ joined as, session ∈ r.returned := by
  have hnone : ∀ session ∈ joined [], session ∈ r.returned := nofun
  unfold State.advance at h
  split at h
  · cases h
  · split at h
    · unfold State.inspect at h
      split at h
      · split at h
        · cases h
          exact ⟨⟨rfl, rfl, rfl⟩, hnone⟩
        · cases h
          exact ⟨⟨rfl, rfl, rfl⟩, hnone⟩
      · cases h
        exact ⟨⟨rfl, rfl, rfl⟩, hnone⟩
    · cases h
      exact ⟨⟨rfl, rfl, rfl⟩, hnone⟩
  · split at h
    · obtain ⟨hover, heq⟩ := Option.ite_none_right_eq_some.mp h
      cases heq
      refine ⟨⟨rfl, rfl, rfl⟩, fun session hs => ?_⟩
      exact List.mem_singleton.mp hs ▸ hover
    · cases h
  · split at h
    · cases h
      exact ⟨⟨rfl, rfl, rfl⟩, hnone⟩
    · cases h
      exact ⟨⟨rfl, rfl, rfl⟩, hnone⟩
  · split at h
    · split at h
      · cases h
        exact ⟨⟨rfl, rfl, rfl⟩, hnone⟩
      · cases h
        exact ⟨⟨rfl, rfl, rfl⟩, hnone⟩
    · cases h
      exact ⟨⟨rfl, rfl, rfl⟩, hnone⟩
  · split at h
    · obtain ⟨hover, heq⟩ := Option.ite_none_right_eq_some.mp h
      cases heq
      refine ⟨⟨rfl, rfl, rfl⟩, fun session hs => ?_⟩
      exact List.mem_singleton.mp hs ▸ hover
    · cases h

/-- No step takes a return back, and none joins a thread without one. -/
theorem State.react_returned {r r' : State} {e : Event} {as : List Action}
    (h : r.react e = some (r', as)) : (∀ session ∈ r.returned, session ∈ r'.returned) ∧
      ∀ session ∈ joined as, session ∈ r.returned := by
  cases e with
  | adopt =>
    obtain ⟨-, heq⟩ := Option.ite_none_right_eq_some.mp h
    cases heq
    exact ⟨fun _ hx => hx, nofun⟩
  | reapFinished =>
    obtain ⟨-, heq⟩ := Option.ite_none_right_eq_some.mp h
    cases heq
    exact ⟨fun _ hx => hx, nofun⟩
  | stopAll =>
    obtain ⟨-, heq⟩ := Option.ite_none_right_eq_some.mp h
    cases heq
    exact ⟨fun _ hx => hx, nofun⟩
  | advance =>
    obtain ⟨⟨-, hreturned, -⟩, hjoined⟩ := State.advance_sessions h
    exact ⟨fun _ hx => hreturned ▸ hx, hjoined⟩
  | finish n =>
    cases h
    exact ⟨fun _ hx => hx, nofun⟩
  | exit n =>
    obtain ⟨-, heq⟩ := Option.ite_none_right_eq_some.mp h
    cases heq
    exact ⟨fun _ hx => List.mem_cons_of_mem _ hx, nofun⟩

/-- Threads that were joined have returned. -/
theorem Reached.joined_returned {r : State} {es : List Event}
    (h : play State.step .initial es = some r) :
    ∀ session ∈ joined (outputs State.step State.actions .initial es), session ∈ r.returned := by
  have hstep : ∀ (r : State) (as : List Action) (e : Event) (r' : State),
      (∀ session ∈ joined as, session ∈ r.returned) → True → r.step e = some r' →
        ∀ session ∈ joined (as ++ r.actions e), session ∈ r'.returned := by
    intro r as e r' hI _ hr session hs
    obtain ⟨hkeep, hjoined⟩ := State.react_returned (State.react_of_step hr)
    rw [joined_append] at hs
    rcases List.mem_append.mp hs with hs | hs
    · exact hkeep session (hI session hs)
    · exact hkeep session (hjoined session hs)
  have hrun : ∀ session ∈ joined ([] ++ outputs State.step State.actions .initial es),
      session ∈ r.returned :=
    history State.step (I := fun r as => ∀ session ∈ joined as, session ∈ r.returned) hstep nofun
      (.of_forall State.step (fun _ _ => trivial) .initial es) h
  exact hrun

/-- Once no entry is left, every thread that was handed over has returned. -/
theorem Reached.returned {r : State} (h : Reached r) (hempty : r.entries = []) :
    ∀ session < r.adopted, session ∈ r.returned := by
  intro session hs
  obtain ⟨es, hes⟩ := h
  have hconserved : Conserved r (outputs State.step State.actions .initial es) :=
    (bookkeeping hes).2
  unfold Conserved State.unjoined at hconserved
  rw [hempty] at hconserved
  exact Reached.joined_returned hes session (hconserved.mem_iff.mpr (List.mem_range.mpr hs))

/-- An operation goes on or ends; `stopAll` ends without entries. -/
theorem State.advance_holder {r r' : State} {as : List Action} (h : r.advance = some (r', as)) :
    (r.holder.isReap = true ∧ (r'.holder.isReap = true ∨ r'.holder = .free)) ∨
      (r.holder.isStop = true ∧
        (r'.holder.isStop = true ∨ r'.holder = .free ∧ r'.entries = [])) := by
  have hm := moves_of_advance h
  cases hm with
  | adopt hfree | reapFinished hfree | stopAll hfree =>
    unfold State.advance at h
    rw [hfree] at h
    cases h
  | finish session => exact absurd (advance_sessions h).1.1 (List.cons_ne_self _ _)
  | exit session => exact absurd (advance_sessions h).1.2.1 (List.cons_ne_self _ _)
  | running it e hat | ended it e hat | endedThreadless it e hat | reaped it e hat =>
    rw [hat]
    exact .inl ⟨rfl, .inl rfl⟩
  | endReap it hat =>
    rw [hat]
    exact .inl ⟨rfl, .inr rfl⟩
  | requestStop i e hat | endRequests i hat | join i e hat | skip i e hat | joined i e hat =>
    rw [hat]
    exact .inr ⟨rfl, .inl rfl⟩
  | endStop i hat =>
    rw [hat]
    exact .inr ⟨rfl, .inr ⟨rfl, rfl⟩⟩

end FaceTracking.Registry

namespace FaceTracking.Main

open Lib Registry

/-! ## The invariant -/

/-- The state is as the statements so far say. -/
structure Agrees (k : Known) (s : State) : Prop where
  absent : ∀ w, w ∉ k.live → (s.threads w).thread = .absent
  stopped : ∀ w ∈ k.stopped, (s.threads w).running = false
  serving : k.serving = false → s.registry.entries = []
  servers : ∀ w ∈ k.live, w.isServer = true → k.serving = true
  opened : ∀ d, d ∈ k.opened ↔ ∃ ok, (d, .opened ok) ∈ s.calls
  devices : ∀ w ∈ k.live, ∀ d ∈ w.device, d ∈ k.opened
  closing : k.closing = true ↔ ∃ d, (d, .closed) ∈ s.calls
  quiet : k.closing = true → k.live = [] ∧ k.serving = false

/-- Who is in the mutex. -/
structure Mutex (s : State) : Prop where
  reaping : ∀ w, (s.threads w).thread = .live .reaping → s.registry.holder.isReap = true
  owner : s.registry.holder.isReap = true →
    ∃ w, ∀ v, (s.threads v).thread = .live .reaping ↔ v = w
  stopping : s.registry.holder.isStop = true ↔ ∃ next, s.program = .step .stoppingAll next

structure Inv (s : State) : Prop where
  known : ∃ k, s.program.text.orderly k = true ∧ Agrees k s
  ordered : Ordered s.calls
  fits : ∀ w place, (s.threads w).thread = .live place → place.fits w = true
  mutex : Mutex s
  registry : Reached s.registry

theorem inv_initial (cfg : Listeners) : Inv (.initial cfg) where
  known := ⟨.initial, program_orderly cfg,
    { absent := fun _ _ => rfl
      stopped := nofun
      serving := fun _ => rfl
      servers := nofun
      opened := fun _ => ⟨nofun, nofun⟩
      devices := nofun
      closing := ⟨nofun, nofun⟩
      quiet := nofun }⟩
  ordered := by
    intro t c u ht
    exact absurd ht.symm (List.append_ne_nil_of_right_ne_nil _ (List.cons_ne_nil _ _))
  fits := nofun
  mutex := ⟨nofun, nofun, nofun, nofun⟩
  registry := ⟨[], rfl⟩

/-! ### Threads -/

@[simp] theorem State.setThread_same (s : State) (w : Worker) (t : StoppableThread) :
    (s.setThread w t).threads w = t := if_pos rfl

theorem State.setThread_ne (s : State) {w v : Worker} (h : v ≠ w) (t : StoppableThread) :
    (s.setThread w t).threads v = s.threads v := if_neg h

theorem Agrees.live {k : Known} {s : State} (h : Agrees k s) {w : Worker} {place : Place}
    (hat : (s.threads w).thread = .live place) : w ∈ k.live := by
  by_contra hw
  rw [h.absent w hw] at hat
  cases hat

/-- A thread that is there may do anything but change its flag. -/
theorem Agrees.setThread {k : Known} {s : State} (h : Agrees k s) {w : Worker} {t : StoppableThread}
    (hlive : w ∈ k.live) (hrun : t.running = (s.threads w).running) :
    Agrees k (s.setThread w t) where
  absent v hv := by
    have hvw : v ≠ w := by
      rintro rfl
      exact hv hlive
    rw [s.setThread_ne hvw]
    exact h.absent v hv
  stopped v hv := by
    by_cases hvw : v = w
    · subst hvw
      rw [s.setThread_same, hrun]
      exact h.stopped v hv
    · rw [s.setThread_ne hvw]
      exact h.stopped v hv
  serving := h.serving
  servers := h.servers
  opened := h.opened
  devices := h.devices
  closing := h.closing
  quiet := h.quiet

theorem Agrees.of_eq {k : Known} {s s' : State} (h : Agrees k s) (hthreads : s'.threads = s.threads)
    (hentries : s'.registry.entries = s.registry.entries) (hcalls : s'.calls = s.calls) :
    Agrees k s' where
  absent w hw := hthreads ▸ h.absent w hw
  stopped w hw := hthreads ▸ h.stopped w hw
  serving hs := hentries ▸ h.serving hs
  servers := h.servers
  opened d := hcalls ▸ h.opened d
  devices := h.devices
  closing := hcalls ▸ h.closing
  quiet := h.quiet

/-- The entries may change while there may be sessions. -/
theorem Agrees.setRegistry {k : Known} {s : State} (h : Agrees k s) (registry : Registry.State)
    (requested : List Nat) (hserving : k.serving = false → registry.entries = []) :
    Agrees k { s with registry, requested } where
  absent := h.absent
  stopped := h.stopped
  serving := hserving
  servers := h.servers
  opened := h.opened
  devices := h.devices
  closing := h.closing
  quiet := h.quiet

theorem Agrees.used {k : Known} {s : State} (h : Agrees k s) (d : Device) :
    Agrees k (s.call d .used) where
  absent := h.absent
  stopped := h.stopped
  serving := h.serving
  servers := h.servers
  opened d' := by
    rw [h.opened d']
    simp [State.call]
  devices := h.devices
  closing := by
    rw [h.closing]
    simp [State.call]
  quiet := h.quiet

/-- While a thread is there, its device is open and none has been closed. -/
theorem Agrees.admits {k : Known} {s : State} (h : Agrees k s) {w : Worker} (hlive : w ∈ k.live)
    {d : Device} (hd : d ∈ w.device) : Admits s.calls (d, .used) := by
  refine ⟨(h.opened d).mp (h.devices w hlive d hd), fun d' hclosed => ?_⟩
  have hnone := (h.quiet (h.closing.mpr ⟨d', hclosed⟩)).1
  rw [hnone] at hlive
  cases hlive

theorem Mutex.of_eq {s s' : State} (h : Mutex s)
    (hreaping : ∀ v, (s'.threads v).thread = .live .reaping ↔ (s.threads v).thread = .live .reaping)
    (hreap : s'.registry.holder.isReap = s.registry.holder.isReap)
    (hstop : s'.registry.holder.isStop = s.registry.holder.isStop)
    (hprogram : s'.program = s.program) : Mutex s' where
  reaping w hw := by
    rw [hreap]
    exact h.reaping w ((hreaping w).mp hw)
  owner ho := by
    rw [hreap] at ho
    obtain ⟨w, hw⟩ := h.owner ho
    exact ⟨w, fun v => (hreaping v).trans (hw v)⟩
  stopping := by
    rw [hstop, hprogram]
    exact h.stopping

/-- Neither before nor behind this step is the thread in `reapFinished`. -/
theorem reaping_setThread {s : State} {w : Worker} {t : StoppableThread}
    (hbefore : (s.threads w).thread ≠ .live .reaping) (hafter : t.thread ≠ .live .reaping)
    (v : Worker) : ((s.setThread w t).threads v).thread = .live .reaping ↔
      (s.threads v).thread = .live .reaping := by
  by_cases hvw : v = w
  · subst hvw
    rw [s.setThread_same]
    exact ⟨fun h => absurd h hafter, fun h => absurd h hbefore⟩
  · rw [s.setThread_ne hvw]

theorem fits_setThread {s : State}
    (h : ∀ w place, (s.threads w).thread = .live place → place.fits w = true) {w : Worker}
    {t : StoppableThread} (ht : ∀ place, t.thread = .live place → place.fits w = true) (v : Worker)
    (place : Place) (hv : ((s.setThread w t).threads v).thread = .live place) :
    place.fits v = true := by
  by_cases hvw : v = w
  · subst hvw
    rw [s.setThread_same] at hv
    exact ht place hv
  · rw [s.setThread_ne hvw] at hv
    exact h v place hv

/-- A step of a thread that concerns no one else keeps the invariant. -/
theorem Inv.move {s : State} (h : Inv s) {w : Worker} {place : Place} {t : StoppableThread}
    (hat : (s.threads w).thread = .live place) (hplace : place ≠ .reaping)
    (hrun : t.running = (s.threads w).running) (hnot : t.thread ≠ .live .reaping)
    (ht : ∀ place, t.thread = .live place → place.fits w = true) : Inv (s.setThread w t) := by
  obtain ⟨k, hk, ha⟩ := h.known
  have hbefore : (s.threads w).thread ≠ .live .reaping := by
    rw [hat]
    exact fun heq => hplace (Thread.live.inj heq)
  exact
    { known := ⟨k, hk, ha.setThread (ha.live hat) hrun⟩
      ordered := h.ordered
      fits := fits_setThread h.fits ht
      mutex := h.mutex.of_eq (reaping_setThread hbefore hnot) rfl rfl rfl
      registry := h.registry }

theorem State.advance_eq {s u : State} (h : s.advance = some u) :
    ∃ r as, s.registry.advance = some (r, as) ∧
      u = { s with registry := r, requested := s.requested ++ State.requests as } := by
  obtain ⟨⟨r, as⟩, hr, rfl⟩ := Option.map_eq_some_iff.mp h
  exact ⟨r, as, hr, rfl⟩

/-- The snapshots that are being saved concern no one else. -/
theorem Inv.withSnapshots {s : State} (h : Inv s) (n : Nat) : Inv { s with snapshots := n } := by
  obtain ⟨k, hk, ha⟩ := h.known
  exact
    { known := ⟨k, hk, ha.of_eq rfl rfl rfl⟩
      ordered := h.ordered
      fits := h.fits
      mutex := h.mutex.of_eq (fun _ => Iff.rfl) rfl rfl rfl
      registry := h.registry }

theorem State.snapshot_eq (s : State) (autoSnapshot : Bool) (w : Worker) (o : Outcome) :
    ∃ n, s.snapshot autoSnapshot w o = { s with snapshots := n } := by
  unfold State.snapshot
  split
  · exact ⟨_, rfl⟩
  · exact ⟨s.snapshots, rfl⟩

/-- A thread's step keeps the invariant: it moves on in its loop, uses its device,
or is in an operation of the registry. -/
theorem Inv.thread {autoSnapshot : Bool} {s s' : State} {w : Worker} (h : Inv s)
    (hm : ThreadMoves autoSnapshot s w s') : Inv s' := by
  obtain ⟨k, hk, ha⟩ := h.known
  cases hm with
  | goto place next hat hplace hnext hfits =>
    refine h.move hat hplace rfl (fun heq => hnext (Thread.live.inj heq)) ?_
    intro place' hplace'
    rw [← Thread.live.inj hplace']
    exact hfits (h.fits w place hat)
  | ended place hat hplace => exact h.move hat hplace rfl nofun nofun
  | use o hat =>
    have hlive := ha.live hat
    have huse : Inv (s.use w o) := by
      unfold State.use
      split
      · exact h
      · rename_i d hd
        split
        · exact h
        · exact
            { known := ⟨k, hk, ha.used d⟩
              ordered := h.ordered.append (ha.admits hlive hd)
              fits := h.fits
              mutex := h.mutex.of_eq (fun _ => Iff.rfl) rfl rfl rfl
              registry := h.registry }
    have hthreads : (s.use w o).threads = s.threads := by
      unfold State.use
      split
      · rfl
      · split
        · rfl
        · rfl
    obtain ⟨n, hn⟩ := State.snapshot_eq (s.use w o) autoSnapshot w o
    rw [hn]
    have hat' : (({ s.use w o with snapshots := n } : State).threads w).thread = .live .body := by
      show ((s.use w o).threads w).thread = _
      rw [hthreads, hat]
    refine (huse.withSnapshots n).move hat' nofun rfl nofun fun place hplace => ?_
    rw [← Thread.live.inj hplace]
    rfl
  | adopt hat hfree =>
    have hserver : w.isServer = true := h.fits w .adopting hat
    have hserving := ha.servers w (ha.live hat) hserver
    have hadopt : Inv { s with registry := s.registry.adopt } :=
      { known := ⟨k, hk, ha.setRegistry s.registry.adopt s.requested fun hf => by
          rw [hserving] at hf
          cases hf⟩
        ordered := h.ordered
        fits := h.fits
        mutex := h.mutex.of_eq (fun _ => Iff.rfl) rfl rfl rfl
        registry := h.registry.step (Registry.State.step_adopt hfree) }
    have hthere : (({ s with registry := s.registry.adopt } : State).threads w).thread =
        .live .adopting := hat
    refine hadopt.move hthere nofun rfl nofun fun place hplace => ?_
    rw [← Thread.live.inj hplace]
    exact hserver
  | reap hat hfree =>
    have hnone : ∀ v, (s.threads v).thread ≠ .live .reaping := by
      intro v hv
      have hreap := h.mutex.reaping v hv
      rw [hfree] at hreap
      cases hreap
    have hstop : ¬ ∃ next, s.program = .step .stoppingAll next := by
      rw [← h.mutex.stopping, hfree]
      exact nofun
    refine
      { known := ⟨k, hk, (ha.setRegistry { s.registry with holder := .reaping 0 } s.requested
          ha.serving).setThread (ha.live hat) rfl⟩
        ordered := h.ordered
        fits := fits_setThread h.fits fun place hplace => ?_
        mutex := ⟨fun _ _ => rfl, fun _ => ⟨w, fun v => ?_⟩, nofun, fun hs => absurd hs hstop⟩
        registry := h.registry.step (Registry.State.step_reapFinished hfree) }
    · rw [← Thread.live.inj hplace]
      exact h.fits w .reap hat
    · by_cases hvw : v = w
      · subst hvw
        exact ⟨fun _ => rfl, fun _ => congrArg StoppableThread.thread (State.setThread_same _ v _)⟩
      · refine ⟨fun hv => absurd ?_ (hnone v), fun heq => absurd heq hvw⟩
        rwa [State.goto, State.setThread_ne _ hvw] at hv
  | reaping u hat hu hheld =>
    obtain ⟨r, as, hr, rfl⟩ := State.advance_eq hu
    have hserving := ha.servers w (ha.live hat) (h.fits w .reaping hat)
    have hreap := h.mutex.reaping w hat
    have hstop := Holder.not_stop hreap
    have hreap' : r.holder.isReap = true := by
      rcases Registry.State.advance_holder hr with ⟨-, hgoes⟩ | ⟨hstops, -⟩
      · exact hgoes.resolve_right hheld
      · rw [hstop] at hstops
        cases hstops
    exact
      { known := ⟨k, hk, ha.setRegistry r _ fun hf => by
          rw [hserving] at hf
          cases hf⟩
        ordered := h.ordered
        fits := h.fits
        mutex := h.mutex.of_eq (fun _ => Iff.rfl) (hreap'.trans hreap.symm)
          ((Holder.not_stop hreap').trans hstop.symm) rfl
        registry := h.registry.step (Registry.State.step_advance hr) }
  | reaped u hat hu hfree =>
    obtain ⟨r, as, hr, rfl⟩ := State.advance_eq hu
    have hlive := ha.live hat
    have hserving := ha.servers w hlive (h.fits w .reaping hat)
    have hreap := h.mutex.reaping w hat
    have hstop : ¬ ∃ next, s.program = .step .stoppingAll next := by
      rw [← h.mutex.stopping, Holder.not_stop hreap]
      exact nofun
    obtain ⟨v, howner⟩ := h.mutex.owner hreap
    obtain rfl := (howner w).mp hat
    have hentries : Agrees k { s with registry := r, requested := s.requested ++ State.requests as } :=
      ha.setRegistry r _ fun hf => by
        rw [hserving] at hf
        cases hf
    refine
      { known := ⟨k, hk, hentries.setThread hlive rfl⟩
        ordered := h.ordered
        fits := fits_setThread h.fits fun place hplace => ?_
        mutex := ⟨fun v hv => ?_, fun ho => ?_, fun hs => ?_, fun hs => absurd hs hstop⟩
        registry := h.registry.step (Registry.State.step_advance hr) }
    · rw [← Thread.live.inj hplace]
      rfl
    · by_cases hvw : v = w
      · subst hvw
        have hcheck := congrArg StoppableThread.thread (State.setThread_same
          { s with registry := r, requested := s.requested ++ State.requests as } v
          { s.threads v with thread := .live .check })
        exact absurd (hcheck.symm.trans hv) nofun
      · rw [State.goto, State.setThread_ne _ hvw] at hv
        exact absurd ((howner v).mp hv) hvw
    · have hf : r.holder = .free := hfree
      have ho' : r.holder.isReap = true := ho
      rw [hf] at ho'
      cases ho'
    · have hf : r.holder = .free := hfree
      have hs' : r.holder.isStop = true := hs
      rw [hf] at hs'
      cases hs'

/-! ### Main -/

theorem Agrees.openDevice {k : Known} {s : State} (h : Agrees k s) (d : Device) (ok : Bool) :
    Agrees (k.after (.openDevice d)) (s.call d (.opened ok)) where
  absent := h.absent
  stopped := h.stopped
  serving := h.serving
  servers := h.servers
  opened d' := by
    show d' ∈ d :: k.opened ↔ ∃ ok', (d', Call.opened ok') ∈ s.calls ++ [(d, .opened ok)]
    rw [List.mem_cons, h.opened d']
    constructor
    · rintro (rfl | ⟨ok', hok⟩)
      · exact ⟨ok, List.mem_append_right _ (List.mem_singleton.mpr rfl)⟩
      · exact ⟨ok', List.mem_append_left _ hok⟩
    · rintro ⟨ok', hok⟩
      rcases List.mem_append.mp hok with hok | hok
      · exact .inr ⟨ok', hok⟩
      · exact .inl (Prod.ext_iff.mp (List.mem_singleton.mp hok)).1
  devices w hw d' hd' := List.mem_cons_of_mem _ (h.devices w hw d' hd')
  closing := by
    show k.closing = true ↔ ∃ d', (d', Call.closed) ∈ s.calls ++ [(d, .opened ok)]
    rw [h.closing]
    simp
  quiet := h.quiet

theorem Agrees.closeDevice {k : Known} {s : State} (h : Agrees k s) (hquiet : k.quiet = true)
    (d : Device) : Agrees (k.after (.closeDevice d)) (s.call d .closed) where
  absent := h.absent
  stopped := h.stopped
  serving := h.serving
  servers := h.servers
  opened d' := by
    show d' ∈ k.opened ↔ ∃ ok', (d', Call.opened ok') ∈ s.calls ++ [(d, .closed)]
    rw [h.opened d']
    simp
  devices := h.devices
  closing := by
    refine ⟨fun _ => ⟨d, ?_⟩, fun _ => rfl⟩
    exact List.mem_append_right _ (List.mem_singleton.mpr rfl)
  quiet _ := by
    obtain ⟨hlive, hserving⟩ := (Bool.and_eq_true _ _).mp hquiet
    exact ⟨List.isEmpty_iff.mp hlive, (Bool.not_eq_true' k.serving).mp hserving⟩

/-- Starting a thread leads to what is known behind the statement. -/
theorem Agrees.start {k : Known} {s s' : State} (h : Agrees k s) {w : Worker}
    (hpermits : k.permits (.start w) = true) (hother : ∀ v ≠ w, s'.threads v = s.threads v)
    (hentries : s'.registry.entries = s.registry.entries) (hcalls : s'.calls = s.calls) :
    Agrees (k.after (.start w)) s' := by
  unfold Known.permits at hpermits
  simp only [Bool.and_eq_true, Bool.not_eq_true', List.contains_eq_mem, decide_eq_false_iff_not,
    Option.all_eq_true, decide_eq_true_eq] at hpermits
  obtain ⟨⟨⟨-, hstopped⟩, hclosing⟩, hdevice⟩ := hpermits
  have hne : ∀ v ∈ k.stopped, v ≠ w := by
    rintro v hv rfl
    exact hstopped hv
  exact
    { absent := fun v hv => by
        have hv' : v ≠ w ∧ v ∉ k.live := ⟨List.ne_of_not_mem_cons hv, List.not_mem_of_not_mem_cons hv⟩
        rw [hother v hv'.1]
        exact h.absent v hv'.2
      stopped := fun v hv => by
        rw [hother v (hne v hv)]
        exact h.stopped v hv
      serving := fun hs => by
        rw [hentries]
        exact h.serving (Bool.or_eq_false_iff.mp hs).1
      servers := fun v hv hserver => by
        rcases List.mem_cons.mp hv with rfl | hv
        · exact Bool.or_eq_true_iff.mpr (.inr hserver)
        · exact Bool.or_eq_true_iff.mpr (.inl (h.servers v hv hserver))
      opened := fun d => hcalls ▸ h.opened d
      devices := fun v hv d hd => by
        rcases List.mem_cons.mp hv with rfl | hv
        · exact hdevice d hd
        · exact h.devices v hv d hd
      closing := hcalls ▸ h.closing
      quiet := fun hc => absurd (hclosing.symm.trans hc) nofun }

theorem Agrees.stop {k : Known} {s : State} (h : Agrees k s) (w : Worker) :
    Agrees (k.after (.stop w)) (s.setThread w (s.threads w).stop) where
  absent v hv := by
    by_cases hvw : v = w
    · subst hvw
      rw [s.setThread_same]
      exact h.absent v hv
    · rw [s.setThread_ne hvw]
      exact h.absent v hv
  stopped v hv := by
    by_cases hvw : v = w
    · subst hvw
      rw [s.setThread_same]
      rfl
    · rw [s.setThread_ne hvw]
      exact h.stopped v ((List.mem_cons.mp hv).resolve_left hvw)
  serving := h.serving
  servers := h.servers
  opened := h.opened
  devices := h.devices
  closing := h.closing
  quiet := h.quiet

theorem StoppableThread.join_eq {t t' : StoppableThread} (h : t.join = some t') :
    t' = { t with thread := .absent } := by
  unfold join at h
  split at h
  · rename_i hat
    rw [← Option.some.inj h, ← hat]
  · exact (Option.some.inj h).symm
  · cases h

theorem Agrees.join {k : Known} {s : State} (h : Agrees k s) (w : Worker) :
    Agrees (k.after (.join w)) (s.setThread w { s.threads w with thread := .absent }) where
  absent v hv := by
    by_cases hvw : v = w
    · subst hvw
      rw [s.setThread_same]
    · rw [s.setThread_ne hvw]
      exact h.absent v fun hlive => hv (List.mem_filter.mpr ⟨hlive, by simpa using hvw⟩)
  stopped v hv := by
    by_cases hvw : v = w
    · subst hvw
      rw [s.setThread_same]
      exact h.stopped v hv
    · rw [s.setThread_ne hvw]
      exact h.stopped v hv
  serving := h.serving
  servers v hv := h.servers v (List.mem_filter.mp hv).1
  opened := h.opened
  devices v hv := h.devices v (List.mem_filter.mp hv).1
  closing := h.closing
  quiet hc := by
    obtain ⟨hlive, hserving⟩ := h.quiet hc
    refine ⟨?_, hserving⟩
    show k.live.filter _ = []
    rw [hlive]
    rfl

/-- Behind `stopAll` there is no session. -/
theorem Agrees.stopAll {k : Known} {s : State} (h : Agrees k s)
    (hpermits : k.permits .stopAll = true) (hempty : s.registry.entries = []) :
    Agrees (k.after .stopAll) s where
  absent := h.absent
  stopped := h.stopped
  serving _ := hempty
  servers w hw hserver := by
    have hnot := List.all_eq_true.mp hpermits w hw
    rw [hserver] at hnot
    cases hnot
  opened := h.opened
  devices := h.devices
  closing := h.closing
  quiet hc := ⟨(h.quiet hc).1, rfl⟩

/-- A statement is done and its successor begins. -/
theorem Inv.proceed {s s' : State} {k' : Known} (h : Inv s)
    (hbefore : ∀ next, s.program ≠ .step .stoppingAll next) (hk : s'.program.orderly k' = true)
    (ha : Agrees k' s') (hordered : Ordered s'.calls)
    (hfits : ∀ w place, (s'.threads w).thread = .live place → place.fits w = true)
    (hreaping : ∀ v, (s'.threads v).thread = .live .reaping ↔ (s.threads v).thread = .live .reaping)
    (hregistry : s'.registry = s.registry) : Inv s' := by
  obtain ⟨htext, hnot⟩ := Program.orderly_text hk
  have hstop : s.registry.holder.isStop = false := by
    rw [Bool.eq_false_iff]
    intro hs
    obtain ⟨next, hnext⟩ := h.mutex.stopping.mp hs
    exact hbefore next hnext
  refine
    { known := ⟨k', by rw [htext]; exact hk, ha⟩
      ordered := hordered
      fits := hfits
      mutex := ⟨fun w hw => ?_, fun ho => ?_, fun hs => ?_, fun ⟨next, hnext⟩ => ?_⟩
      registry := hregistry ▸ h.registry }
  · rw [hregistry]
    exact h.mutex.reaping w ((hreaping w).mp hw)
  · rw [hregistry] at ho
    obtain ⟨w, hw⟩ := h.mutex.owner ho
    exact ⟨w, fun v => (hreaping v).trans (hw v)⟩
  · rw [hregistry, hstop] at hs
    cases hs
  · exact absurd hnext (hnot next)

/-- A statement that leaves the threads and the registry alone keeps the
invariant. -/
theorem Inv.proceed_same {s s' : State} {k' : Known} (h : Inv s)
    (hbefore : ∀ next, s.program ≠ .step .stoppingAll next) (hk : s'.program.orderly k' = true)
    (ha : Agrees k' s') (hordered : Ordered s'.calls) (hthreads : s'.threads = s.threads)
    (hregistry : s'.registry = s.registry) : Inv s' :=
  h.proceed hbefore hk ha hordered (fun w place hw => h.fits w place (hthreads ▸ hw))
    (fun v => by rw [hthreads]) hregistry

/-- What the discipline permits may be called. -/
theorem Agrees.admits_open {k : Known} {s : State} (h : Agrees k s) {d : Device}
    (hpermits : k.permits (.openDevice d) = true) (ok : Bool) : Admits s.calls (d, .opened ok) := by
  unfold Known.permits at hpermits
  simp only [Bool.and_eq_true, Bool.not_eq_true', List.contains_eq_mem,
    decide_eq_false_iff_not] at hpermits
  obtain ⟨hopened, hclosing⟩ := hpermits
  refine ⟨fun ok' hok => hopened ((h.opened d).mpr ⟨ok', hok⟩), fun d' hclosed => ?_⟩
  rw [h.closing.mpr ⟨d', hclosed⟩] at hclosing
  cases hclosing

theorem Inv.attempt {s : State} {a : Attempt} {yes no : Program} (h : Inv s)
    (hprogram : s.program = .attempt a yes no) (ok : Bool) :
    Inv ({ s with program := if ok then yes else no }.attempted ok a) := by
  obtain ⟨k, hk, ha⟩ := h.known
  rw [hprogram] at hk
  have hbefore : ∀ next, s.program ≠ .step .stoppingAll next := by
    rw [hprogram]
    exact nofun
  have hbranch : ∀ {k'}, yes.orderly k' = true → no.orderly k' = true →
      (if ok then yes else no).orderly k' = true := by
    intro k' hyes hno
    cases ok with
    | true => exact hyes
    | false => exact hno
  cases a with
  | openCamera =>
    obtain ⟨hleft, hno⟩ := (Bool.and_eq_true _ _).mp hk
    obtain ⟨hpermits, hyes⟩ := (Bool.and_eq_true _ _).mp hleft
    exact h.proceed_same hbefore (hbranch hyes hno)
      ((ha.openDevice .camera ok).of_eq rfl rfl rfl)
      (h.ordered.append (ha.admits_open hpermits ok)) rfl rfl
  | loadDetector | createTls =>
    obtain ⟨hyes, hno⟩ := (Bool.and_eq_true _ _).mp hk
    exact h.proceed_same hbefore (hbranch hyes hno) (ha.of_eq rfl rfl rfl) h.ordered rfl rfl
  | bindServer =>
    obtain ⟨hyes, hno⟩ := (Bool.and_eq_true _ _).mp hk
    cases ok with
    | true => exact h.proceed_same hbefore hyes (ha.of_eq rfl rfl rfl) h.ordered rfl rfl
    | false => exact h.proceed_same hbefore hno (ha.of_eq rfl rfl rfl) h.ordered rfl rfl

/-- `stopAll` goes on or ends. -/
theorem Inv.stoppingAll {s u : State} {next : Program} (h : Inv s)
    (hprogram : s.program = .step .stoppingAll next) (hu : s.advance = some u) :
    Inv (if u.registry.holder = .free then { u with program := next } else u) := by
  obtain ⟨k, hk, ha⟩ := h.known
  rw [hprogram] at hk
  obtain ⟨hpermits, hnext⟩ := (Bool.and_eq_true _ _).mp hk
  obtain ⟨r, as, hr, rfl⟩ := State.advance_eq hu
  have hstop : s.registry.holder.isStop = true := h.mutex.stopping.mpr ⟨next, hprogram⟩
  have hreap : s.registry.holder.isReap = false := Holder.not_reap hstop
  have hnone : ∀ v, (s.threads v).thread ≠ .live .reaping := by
    intro v hv
    rw [h.mutex.reaping v hv] at hreap
    cases hreap
  have hgoes : r.holder.isStop = true ∨ r.holder = .free ∧ r.entries = [] := by
    rcases Registry.State.advance_holder hr with ⟨hreaps, -⟩ | ⟨-, hgoes⟩
    · rw [hreap] at hreaps
      cases hreaps
    · exact hgoes
  have hreached := h.registry.step (Registry.State.step_advance hr)
  split
  · rename_i hfree
    have hf : r.holder = .free := hfree
    have hempty : r.entries = [] := by
      rcases hgoes with hgoes | hgoes
      · rw [hf] at hgoes
        cases hgoes
      · exact hgoes.2
    obtain ⟨htext, hnot⟩ := Program.orderly_text hnext
    have hentries : Agrees k { s with registry := r, requested := s.requested ++ State.requests as } :=
      ha.setRegistry r _ fun _ => hempty
    refine
      { known := ⟨k.after .stopAll, ?_, (hentries.stopAll hpermits hempty).of_eq rfl rfl rfl⟩
        ordered := h.ordered
        fits := h.fits
        mutex := ⟨fun v hv => absurd hv (hnone v), fun ho => ?_, fun hs => ?_, fun hn => ?_⟩
        registry := hreached }
    · show next.text.orderly _ = true
      rw [htext]
      exact hnext
    · have ho' : r.holder.isReap = true := ho
      rw [hf] at ho'
      cases ho'
    · have hs' : r.holder.isStop = true := hs
      rw [hf] at hs'
      cases hs'
    · obtain ⟨next', hnext'⟩ := hn
      exact absurd hnext' (hnot next')
  · rename_i hheld
    have hstop' : r.holder.isStop = true := hgoes.resolve_right fun hf => hheld hf.1
    have hserving : k.serving = false → r.entries = [] := by
      intro hs
      have hlen := Registry.State.advance_length hr
      rw [ha.serving hs] at hlen
      exact List.length_eq_zero_iff.mp (Nat.le_zero.mp hlen)
    have hreap' : r.holder.isReap = false := Holder.not_reap hstop'
    refine
      { known := ⟨k, by rw [hprogram]; exact hk, ha.setRegistry r _ hserving⟩
        ordered := h.ordered
        fits := h.fits
        mutex := ⟨fun v hv => absurd hv (hnone v), fun ho => ?_, fun _ => ⟨next, hprogram⟩,
          fun _ => hstop'⟩
        registry := hreached }
    have ho' : r.holder.isReap = true := ho
    rw [hreap'] at ho'
    cases ho'

theorem StoppableThread.start_eq {t t' : StoppableThread} (h : t.start = some t') :
    t' = t ∨ (t.thread = .absent ∧ t' = ⟨true, .live .check⟩) := by
  unfold start at h
  split at h
  · exact .inl (Option.some.inj h).symm
  · split at h
    · exact .inr ⟨‹_›, (Option.some.inj h).symm⟩
    · cases h

/-- Every statement of `main` keeps the invariant. -/
theorem Inv.statement {s s' : State} {c : Statement} {next : Program} (h : Inv s)
    (hprogram : s.program = .step c next) {ok : Bool} (hs' : s.perform next ok c = some s') :
    Inv s' := by
  by_cases hc : c = .stoppingAll
  · subst hc
    obtain ⟨u, hu, rfl⟩ := Option.map_eq_some_iff.mp hs'
    exact h.stoppingAll hprogram hu
  obtain ⟨k, hk, ha⟩ := h.known
  have hbefore : ∀ next, s.program ≠ .step .stoppingAll next := by
    intro next' heq
    rw [hprogram] at heq
    injection heq with hc'
    exact hc hc'
  have htext : s.program.text = .step c next := by
    rw [hprogram]
    cases c with
    | stoppingAll => exact absurd rfl hc
    | _ => rfl
  rw [htext] at hk
  obtain ⟨hpermits, hnext⟩ := (Bool.and_eq_true _ _).mp hk
  cases c with
  | stoppingAll => exact absurd rfl hc
  | openDevice d =>
    cases hs'
    exact h.proceed_same hbefore hnext ((ha.openDevice d ok).of_eq rfl rfl rfl)
      (h.ordered.append (ha.admits_open hpermits ok)) rfl rfl
  | closeDevice d =>
    cases hs'
    exact h.proceed_same hbefore hnext ((ha.closeDevice hpermits d).of_eq rfl rfl rfl)
      (h.ordered.append trivial) rfl rfl
  | bind w =>
    cases hs'
    exact h.proceed_same hbefore hnext (ha.of_eq rfl rfl rfl) h.ordered rfl rfl
  | start w =>
    unfold State.perform at hs'
    simp only at hs'
    split at hs'
    · obtain ⟨t, ht, rfl⟩ := Option.map_eq_some_iff.mp hs'
      have hother : ∀ v ≠ w, (({ s with program := next } : State).setThread w t).threads v =
          s.threads v := fun v hv => State.setThread_ne _ hv t
      have hstart : Agrees (k.after (.start w))
          (({ s with program := next } : State).setThread w t) :=
        ha.start hpermits hother rfl rfl
      refine h.proceed hbefore hnext hstart h.ordered (fits_setThread h.fits fun place hplace => ?_)
        (fun v => ?_) rfl
      · rcases StoppableThread.start_eq ht with rfl | ⟨-, rfl⟩
        · exact h.fits w place hplace
        · rw [← Thread.live.inj hplace]
          rfl
      · by_cases hvw : v = w
        · subst hvw
          rw [State.setThread_same]
          rcases StoppableThread.start_eq ht with rfl | ⟨habsent, rfl⟩
          · exact Iff.rfl
          · rw [habsent]
            exact ⟨nofun, nofun⟩
        · rw [hother v hvw]
    · cases hs'
      exact h.proceed_same hbefore hnext (ha.start hpermits (fun _ _ => rfl) rfl rfl) h.ordered rfl
        rfl
  | stop w =>
    cases hs'
    refine h.proceed hbefore hnext ((ha.stop w).of_eq rfl rfl rfl) h.ordered
      (fits_setThread h.fits fun place hplace => h.fits w place hplace) (fun v => ?_) rfl
    by_cases hvw : v = w
    · subst hvw
      rw [State.setThread_same]
      exact Iff.rfl
    · rw [State.setThread_ne _ hvw]
  | join w =>
    obtain ⟨t, ht, rfl⟩ := Option.map_eq_some_iff.mp hs'
    have hlive : (s.threads w).thread ≠ .live .reaping := by
      intro hat
      unfold StoppableThread.join at ht
      rw [hat] at ht
      cases ht
    rw [StoppableThread.join_eq ht]
    exact h.proceed hbefore hnext ((ha.join w).of_eq rfl rfl rfl) h.ordered
      (fits_setThread h.fits nofun) (reaping_setThread hlive nofun) rfl
  | awaitSignal =>
    obtain ⟨-, heq⟩ := Option.ite_none_right_eq_some.mp hs'
    cases heq
    exact h.proceed_same hbefore hnext (ha.of_eq rfl rfl rfl) h.ordered rfl rfl
  | stopAll =>
    obtain ⟨r, hr, rfl⟩ := Option.map_eq_some_iff.mp hs'
    obtain ⟨hfree, rfl, -⟩ := Registry.State.stopAll_of_step hr
    have hnone : ∀ v, (s.threads v).thread ≠ .live .reaping := by
      intro v hv
      have hreap := h.mutex.reaping v hv
      rw [hfree] at hreap
      cases hreap
    exact
      { known := ⟨k, hk, ha.of_eq rfl rfl rfl⟩
        ordered := h.ordered
        fits := h.fits
        mutex := ⟨fun v hv => absurd hv (hnone v), nofun, fun _ => ⟨next, rfl⟩, fun _ => rfl⟩
        registry := h.registry.step hr }

/-- A session that finishes or returns keeps the invariant. -/
theorem Inv.session {s : State} (h : Inv s) {e : Registry.Event} {r : Registry.State}
    (hr : s.registry.step e = some r) (hholder : r.holder = s.registry.holder)
    (hentries : r.entries = s.registry.entries) : Inv { s with registry := r } := by
  obtain ⟨k, hk, ha⟩ := h.known
  exact
    { known := ⟨k, hk, ha.of_eq rfl hentries rfl⟩
      ordered := h.ordered
      fits := h.fits
      mutex := h.mutex.of_eq (fun _ => Iff.rfl) (congrArg Holder.isReap hholder)
        (congrArg Holder.isStop hholder) rfl
      registry := h.registry.step hr }

theorem Inv.finish {s s' : State} {session : Nat} (h : Inv s) (hs' : s.finish session = some s') :
    Inv s' := by
  obtain ⟨-, heq⟩ := Option.ite_none_right_eq_some.mp hs'
  obtain ⟨r, hr, rfl⟩ := Option.map_eq_some_iff.mp heq
  cases hr
  exact h.session (e := .finish session) rfl rfl rfl

theorem Inv.exit {s s' : State} {session : Nat} (h : Inv s) (hs' : s.exit session = some s') :
    Inv s' := by
  obtain ⟨-, heq⟩ := Option.ite_none_right_eq_some.mp hs'
  obtain ⟨r, hr, rfl⟩ := Option.map_eq_some_iff.mp heq
  obtain ⟨⟨r', as⟩, hreact, rfl⟩ := Option.map_eq_some_iff.mp hr
  obtain ⟨-, heq'⟩ := Option.ite_none_right_eq_some.mp hreact
  cases heq'
  exact h.session hr rfl rfl

variable {maxClients : Int32} {autoSnapshot : Bool}

/-- Every step keeps the invariant. -/
theorem Inv.step {s s' : State} {e : Event} (h : Inv s)
    (hstep : s.step maxClients autoSnapshot e = some s') : Inv s' := by
  cases e with
  | signal =>
    cases hstep
    obtain ⟨k, hk, ha⟩ := h.known
    exact ⟨⟨k, hk, ha.of_eq rfl rfl rfl⟩, h.ordered, h.fits,
      h.mutex.of_eq (fun _ => Iff.rfl) rfl rfl rfl, h.registry⟩
  | main ok =>
    unfold State.step State.mainStep at hstep
    simp only at hstep
    split at hstep
    · cases hstep
    · exact h.statement ‹_› hstep
    · cases hstep
      exact h.attempt ‹_› ok
  | run w o => exact h.thread (threadMoves hstep)
  | hangUp session => exact h.finish hstep
  | obey session =>
    obtain ⟨-, heq⟩ := Option.ite_none_right_eq_some.mp hstep
    exact h.finish heq
  | exit session => exact h.exit hstep
  | saved =>
    obtain ⟨-, heq⟩ := Option.ite_none_right_eq_some.mp hstep
    cases heq
    exact h.withSnapshots _

/-- The invariant holds in every state of a run. -/
theorem inv_of_play {cfg : Listeners} {s : State} {es : List Event}
    (h : play (State.step maxClients autoSnapshot) (.initial cfg) es = some s) : Inv s :=
  invariant (State.step maxClients autoSnapshot) (I := Inv) (P := fun _ _ => True)
    (fun _ _ _ hs _ hstep => hs.step hstep) (inv_initial cfg)
    (.of_forall (State.step maxClients autoSnapshot) (fun _ _ => trivial) (.initial cfg) es) h

/-! ## Snapshots -/

/-- Only `VisionThread` starts a snapshot, and only with `autoSnapshotOnFace`. -/
theorem snapshots_of_thread {s s' : State} {w : Worker} (hm : ThreadMoves autoSnapshot s w s') :
    s'.snapshots = s.snapshots ∨
      (autoSnapshot = true ∧ w = .vision ∧ s'.snapshots = s.snapshots + 1) := by
  cases hm with
  | goto | adopt | reap | ended => exact .inl rfl
  | reaping _ hat hu =>
    obtain ⟨r, as, hr, rfl⟩ := State.advance_eq hu
    exact .inl rfl
  | reaped _ hat hu =>
    obtain ⟨r, as, hr, rfl⟩ := State.advance_eq hu
    exact .inl rfl
  | use o hat =>
    have huse : (s.use w o).snapshots = s.snapshots := by
      unfold State.use
      split
      · rfl
      · split
        · rfl
        · rfl
    show ((s.use w o).snapshot autoSnapshot w o).snapshots = _ ∨ _ ∧ _ ∧
      ((s.use w o).snapshot autoSnapshot w o).snapshots = _
    unfold State.snapshot
    split
    · rename_i h
      exact .inr ⟨h.1, h.2.1, congrArg (· + 1) huse⟩
    · exact .inl huse

/-- `main` takes no notice of the snapshots and leaves them alone. -/
theorem mainStep_withSnapshots {s s' : State} {ok : Bool} (hs' : s.mainStep ok = some s')
    (n : Nat) :
    ({ s with snapshots := n } : State).mainStep ok = some { s' with snapshots := n } := by
  obtain ⟨program, signalled, threads, bound, registry, requested, calls, snapshots⟩ := s
  unfold State.mainStep at hs' ⊢
  cases program with
  | done => cases hs'
  | attempt a yes no =>
    cases hs'
    cases a with
    | openCamera | loadDetector | createTls => rfl
    | bindServer =>
      unfold State.attempted
      cases ok with
      | true => rfl
      | false => rfl
  | step c next =>
    cases c with
    | openDevice | closeDevice | bind | stop =>
      cases hs'
      rfl
    | start w =>
      unfold State.perform at hs' ⊢
      simp only at hs' ⊢
      split at hs'
      · rename_i hbound
        obtain ⟨t, ht, rfl⟩ := Option.map_eq_some_iff.mp hs'
        rw [if_pos hbound, ht]
        rfl
      · rename_i hbound
        cases hs'
        rw [if_neg hbound]
    | join w =>
      obtain ⟨t, ht, rfl⟩ := Option.map_eq_some_iff.mp hs'
      exact congrArg (Option.map _) ht
    | awaitSignal =>
      obtain ⟨hsignal, heq⟩ := Option.ite_none_right_eq_some.mp hs'
      cases heq
      exact if_pos hsignal
    | stopAll =>
      obtain ⟨r, hr, rfl⟩ := Option.map_eq_some_iff.mp hs'
      exact congrArg (Option.map _) hr
    | stoppingAll =>
      obtain ⟨u, hu, rfl⟩ := Option.map_eq_some_iff.mp hs'
      obtain ⟨⟨r, as⟩, hr, rfl⟩ := Option.map_eq_some_iff.mp hu
      unfold State.perform State.advance
      simp only at hr ⊢
      rw [hr]
      simp only [Option.map_some, Option.some.injEq]
      split
      · rfl
      · rfl

theorem snapshots_of_main {s s' : State} {ok : Bool} (hs' : s.mainStep ok = some s') :
    s'.snapshots = s.snapshots := by
  have hsame : s.mainStep ok = some { s' with snapshots := s.snapshots } :=
    mainStep_withSnapshots hs' s.snapshots
  rw [hs'] at hsame
  have hcount := congrArg State.snapshots (Option.some.inj hsame)
  exact hcount

theorem snapshots_of_session {s s' : State} {session : Nat}
    (h : s.finish session = some s' ∨ s.exit session = some s') : s'.snapshots = s.snapshots := by
  rcases h with h | h
  · obtain ⟨-, heq⟩ := Option.ite_none_right_eq_some.mp h
    obtain ⟨r, -, rfl⟩ := Option.map_eq_some_iff.mp heq
    rfl
  · obtain ⟨-, heq⟩ := Option.ite_none_right_eq_some.mp h
    obtain ⟨r, -, rfl⟩ := Option.map_eq_some_iff.mp heq
    rfl

/-- Without `autoSnapshotOnFace` no step adds a snapshot. -/
theorem snapshots_of_step {s s' : State} {e : Event}
    (hstep : s.step maxClients false e = some s') : s'.snapshots ≤ s.snapshots := by
  cases e with
  | signal =>
    cases hstep
    exact Nat.le_refl _
  | main ok => exact Nat.le_of_eq (snapshots_of_main hstep)
  | run w o =>
    rcases snapshots_of_thread (threadMoves hstep) with hsame | ⟨hauto, -⟩
    · exact Nat.le_of_eq hsame
    · cases hauto
  | hangUp session => exact Nat.le_of_eq (snapshots_of_session (.inl hstep))
  | obey session =>
    obtain ⟨-, heq⟩ := Option.ite_none_right_eq_some.mp hstep
    exact Nat.le_of_eq (snapshots_of_session (.inl heq))
  | exit session => exact Nat.le_of_eq (snapshots_of_session (.inr hstep))
  | saved =>
    obtain ⟨-, heq⟩ := Option.ite_none_right_eq_some.mp hstep
    cases heq
    exact Nat.sub_le _ _

/-- In a run without it there is none. -/
theorem snapshots_of_play {cfg : Listeners} {s : State} {es : List Event}
    (h : play (State.step maxClients false) (.initial cfg) es = some s) : s.snapshots = 0 :=
  invariant (State.step maxClients false) (I := fun s => s.snapshots = 0) (P := fun _ _ => True)
    (fun _ _ _ hs _ hstep => Nat.le_zero.mp (hs ▸ snapshots_of_step hstep)) rfl
    (.of_forall (State.step maxClients false) (fun _ _ => trivial) (.initial cfg) es) h

/-! ## Main result -/

/-- No thread that `main` owns and no session is left. -/
structure Deserted (s : State) : Prop where
  threads : ∀ w, (s.threads w).thread = .absent
  entries : s.registry.entries = []
  sessions : ∀ session < s.spawned, session ∈ s.registry.returned

theorem Inv.deserted {s : State} (h : Inv s)
    (hend : (∃ d, (d, .closed) ∈ s.calls) ∨ s.program = .done) : Deserted s := by
  obtain ⟨k, hk, ha⟩ := h.known
  obtain ⟨hlive, hserving⟩ : k.live = [] ∧ k.serving = false := by
    rcases hend with hclosed | hdone
    · exact ha.quiet (ha.closing.mpr hclosed)
    · rw [hdone] at hk
      obtain ⟨hlive, hserving⟩ := (Bool.and_eq_true _ _).mp hk
      exact ⟨List.isEmpty_iff.mp hlive, (Bool.not_eq_true' k.serving).mp hserving⟩
  have habsent : ∀ w, (s.threads w).thread = .absent := by
    intro w
    refine ha.absent w ?_
    rw [hlive]
    exact List.not_mem_nil
  have hempty := ha.serving hserving
  have hspawned : s.spawned = s.registry.adopted := by
    unfold State.spawned
    simp [Worker.servers, habsent]
  refine ⟨habsent, hempty, fun session hs => ?_⟩
  rw [hspawned] at hs
  exact h.registry.returned hempty session hs

/-- The mutex is free at the end. -/
theorem Inv.free {s : State} (h : Inv s) (hdone : s.program = .done) :
    s.registry.holder = .free := by
  rcases Holder.cases_of s.registry.holder with hfree | hreap | hstop
  · exact hfree
  · obtain ⟨w, hw⟩ := h.mutex.owner hreap
    have habsent := (h.deserted (.inr hdone)).threads w
    rw [(hw w).mpr rfl] at habsent
    cases habsent
  · obtain ⟨next, hnext⟩ := h.mutex.stopping.mp hstop
    rw [hdone] at hnext
    cases hnext

/-- **The terminal's life.** Whatever fails on the way up, whatever the clients and
the signal do, and in every interleaving of `main` with its threads and their
sessions: a device is opened once and used only behind that, and no device is
opened or used once one has been closed. Once one has been closed, and when
`main` is over, no thread that `main` owns and no session is left: every such
thread that was started has been joined, the registry is empty, and every session
that was created has returned. The threads that save automatic snapshots are
detached, so one of them may outlive `main`; without `autoSnapshotOnFace` there is
none. -/
theorem clean_shutdown (cfg : Listeners) {s : State} {es : List Event}
    (h : play (State.step maxClients autoSnapshot) (.initial cfg) es = some s) :
    Ordered s.calls ∧ ((∃ d, (d, .closed) ∈ s.calls) ∨ s.program = .done → Deserted s) ∧
      (s.program = .done → s.registry.clientCount = 0) ∧
      (autoSnapshot = false → s.snapshots = 0) := by
  have hinv := inv_of_play h
  refine ⟨hinv.ordered, hinv.deserted, fun hdone => ?_, fun hoff => ?_⟩
  · obtain ⟨es', hes'⟩ := hinv.registry
    have hcount := (bookkeeping hes').1.count (hinv.free hdone)
    rw [hcount, Registry.State.count, (hinv.deserted (.inr hdone)).entries]
    rfl
  · subst hoff
    exact snapshots_of_play h

/-- A client connects and stays until it is told to leave, and its face is saved
when it comes into the picture. -/
def oneClient : List Event :=
  .replicate 12 (.main true) ++ .replicate 2 (.run .vision .ready) ++
    .replicate 9 (.run .server .ready) ++ [.signal] ++
    .replicate 2 (.main true) ++ .replicate 2 (.run .server .nothing) ++ .replicate 8 (.main true) ++
    [.run .vision .nothing] ++ .replicate 2 (.main true) ++ [.run .business .nothing] ++
    .replicate 2 (.main true) ++ [.run .displayThread .nothing] ++ .replicate 5 (.main true) ++
    [.obey 0, .exit 0] ++ .replicate 25 (.main true)

def served : State :=
  (play (State.step 8 true) (.initial ⟨false, false⟩) oneClient).getD (.initial ⟨false, false⟩)

/-- At the end the snapshot is still being saved. -/
theorem clean_shutdown_one_client :
    served.spawned = 1 ∧ Deserted served ∧ served.program = .done ∧ served.snapshots = 1 := by
  have hplay : play (State.step 8 true) (.initial ⟨false, false⟩) oneClient = some served := by
    have hsome : (play (State.step 8 true) (.initial ⟨false, false⟩) oneClient).isSome = true := by
      decide +kernel
    obtain ⟨s, hs⟩ := Option.isSome_iff_exists.mp hsome
    rw [served, hs]
    rfl
  exact ⟨by decide +kernel,
    (clean_shutdown ⟨false, false⟩ hplay).2.1 (.inl ⟨.camera, by decide +kernel⟩),
    by decide +kernel, by decide +kernel⟩

end FaceTracking.Main
