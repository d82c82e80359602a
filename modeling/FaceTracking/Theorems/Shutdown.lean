import FaceTracking.Lib.Schedule
import FaceTracking.Theorems.Lifetime

/-!
# Shutting down

Once the signal has come, `main` can be brought to its end, whatever the calls
of the terminal return and without any help from the clients. A thread that is
to be joined leaves its loop (`drive_worker`), the mutex comes free
(`drive_reap`), the sessions that `stopAll` waits for have been asked to stop
(`Waits`), and a snapshot that is being saved gets saved (`drive_snapshots`).
-/

namespace FaceTracking.Registry

open Lib

/-! ## What an operation waits for -/

/-- A session that is waited for can return: it has finished, or it has been
asked to. -/
structure Waits (r : State) (requested : List Nat) : Prop where
  known : ∀ e ∈ r.entries, e.session < r.adopted
  place : match r.holder with
    | .reapJoin it => ∃ e, r.entries[it]? = some e ∧ e.session ∈ r.finished
    | .stopping i => ∀ e ∈ r.entries.take i, e.session ∈ requested
    | .joining _ => ∀ e ∈ r.entries, e.session ∈ requested
    | .stopJoin i => (∃ e, r.entries[i]? = some e) ∧ ∀ e ∈ r.entries, e.session ∈ requested
    | _ => True

/-- The work that an operation has before it. -/
def left (r : State) : Nat :=
  match r.holder with
  | .free => 0
  | .reaping it => 2 * (r.entries.length - it) + 1
  | .reapJoin it => 2 * (r.entries.length - it)
  | .stopping i => (r.entries.length - i) + 2 * r.entries.length + 2
  | .joining i => 2 * (r.entries.length - i) + 1
  | .stopJoin i => 2 * (r.entries.length - i)

theorem left_of {r : State} {h : Holder} (hat : r.holder = h) :
    left r = left { r with holder := h } := by
  rw [← hat]

/-- Every step of an operation is progress. -/
theorem left_lt {r r' : State} {as : List Action} (h : r.advance = some (r', as)) :
    left r' < left r := by
  have hm := moves_of_advance h
  have hsessions := (State.advance_sessions h).1
  have hlt : ∀ {i : Nat} {e : Entry}, r.entries[i]? = some e → i < r.entries.length :=
    fun he => (List.getElem?_eq_some_iff.mp he).1
  have hstart : r.holder ≠ .free := by
    intro hfree
    unfold State.advance at h
    rw [hfree] at h
    cases h
  cases hm with
  | adopt hfree | reapFinished hfree | stopAll hfree => exact absurd hfree hstart
  | finish session => exact absurd hsessions.1 (List.cons_ne_self _ _)
  | exit session => exact absurd hsessions.2.1 (List.cons_ne_self _ _)
  | running it e hat he =>
    have := hlt he
    rw [left_of hat]
    show 2 * (r.entries.length - (it + 1)) + 1 < 2 * (r.entries.length - it) + 1
    omega
  | ended it e hat he =>
    rw [left_of hat]
    exact Nat.lt_succ_self _
  | endedThreadless it e hat he =>
    have := hlt he
    rw [left_of hat]
    show 2 * ((r.entries.eraseIdx it).length - it) + 1 < 2 * (r.entries.length - it) + 1
    rw [List.length_eraseIdx_of_lt this]
    omega
  | reaped it e hat he =>
    have := hlt he
    rw [left_of hat]
    show 2 * ((r.entries.eraseIdx it).length - it) + 1 < 2 * (r.entries.length - it)
    rw [List.length_eraseIdx_of_lt this]
    omega
  | endReap it hat =>
    rw [left_of hat]
    exact Nat.succ_pos _
  | requestStop i e hat he =>
    have := hlt he
    rw [left_of hat]
    show (r.entries.length - (i + 1)) + 2 * r.entries.length + 2 <
      (r.entries.length - i) + 2 * r.entries.length + 2
    omega
  | endRequests i hat =>
    rw [left_of hat]
    show 2 * (r.entries.length - 0) + 1 < (r.entries.length - i) + 2 * r.entries.length + 2
    omega
  | join i e hat he =>
    rw [left_of hat]
    exact Nat.lt_succ_self _
  | skip i e hat he =>
    have := hlt he
    rw [left_of hat]
    show 2 * (r.entries.length - (i + 1)) + 1 < 2 * (r.entries.length - i) + 1
    omega
  | joined i e hat he =>
    have := hlt he
    rw [left_of hat]
    show 2 * ((r.entries.set i _).length - (i + 1)) + 1 < 2 * (r.entries.length - i)
    rw [List.length_set]
    omega
  | endStop i hat =>
    rw [left_of hat]
    exact Nat.succ_pos _

/-- The session whose thread is waited for. -/
def State.waitsFor (r : State) : Option Nat :=
  match r.holder with
  | .reapJoin i | .stopJoin i => (r.entries[i]?).map Entry.session
  | _ => none

/-- An operation can go on, or it waits for a session that can return. -/
theorem Waits.advance {r : State} {requested : List Nat} (h : Waits r requested)
    (hheld : r.holder ≠ .free) :
    (∃ r' as, r.advance = some (r', as)) ∨
      ∃ session < r.adopted, r.waitsFor = some session ∧ session ∉ r.returned ∧
        (session ∈ r.finished ∨ session ∈ requested) := by
  have hplace := h.place
  unfold State.advance
  cases hat : r.holder with
  | free => exact absurd hat hheld
  | reaping it =>
    refine .inl ?_
    simp only
    split
    · exact ⟨_, _, rfl⟩
    · exact ⟨_, _, rfl⟩
  | stopping i =>
    refine .inl ?_
    simp only
    split
    · exact ⟨_, _, rfl⟩
    · exact ⟨_, _, rfl⟩
  | joining i =>
    refine .inl ?_
    simp only
    split
    · split
      · exact ⟨_, _, rfl⟩
      · exact ⟨_, _, rfl⟩
    · exact ⟨_, _, rfl⟩
  | reapJoin it =>
    rw [hat] at hplace
    obtain ⟨e, he, hfinished⟩ := hplace
    simp only [he]
    by_cases hover : e.session ∈ r.returned
    · rw [if_pos hover]
      exact .inl ⟨_, _, rfl⟩
    · refine .inr ⟨e.session, h.known e (List.mem_of_getElem? he), ?_, hover, .inl hfinished⟩
      unfold State.waitsFor
      rw [hat]
      exact congrArg (Option.map Entry.session) he
  | stopJoin i =>
    rw [hat] at hplace
    obtain ⟨⟨e, he⟩, hall⟩ := hplace
    simp only [he]
    by_cases hover : e.session ∈ r.returned
    · rw [if_pos hover]
      exact .inl ⟨_, _, rfl⟩
    · have hmem := List.mem_of_getElem? he
      refine .inr ⟨e.session, h.known e hmem, ?_, hover, .inr (hall e hmem)⟩
      unfold State.waitsFor
      rw [hat]
      exact congrArg (Option.map Entry.session) he

/-- A step outside an operation leaves it waiting for the same sessions. -/
theorem Waits.of_eq {r r' : State} {requested : List Nat} (h : Waits r requested)
    (hentries : r'.entries = r.entries) (hadopted : r'.adopted = r.adopted)
    (hholder : r'.holder = r.holder) (hfinished : ∀ x ∈ r.finished, x ∈ r'.finished) :
    Waits r' requested := by
  refine ⟨fun e he => ?_, ?_⟩
  · rw [hadopted]
    exact h.known e (hentries ▸ he)
  · have hplace := h.place
    rw [hholder, hentries]
    cases hat : r.holder with
    | reapJoin it =>
      rw [hat] at hplace
      obtain ⟨e, he, hf⟩ := hplace
      exact ⟨e, he, hfinished _ hf⟩
    | free | reaping | stopping | joining | stopJoin =>
      rw [hat] at hplace
      exact hplace

theorem Waits.adopt {r : State} {requested : List Nat} (h : Waits r requested)
    (hfree : r.holder = .free) : Waits r.adopt requested := by
  refine ⟨fun e he => ?_, ?_⟩
  · rcases List.mem_append.mp he with he | he
    · exact Nat.lt_succ_of_lt (h.known e he)
    · rw [List.mem_singleton.mp he]
      exact Nat.lt_succ_self _
  · have hholder : r.adopt.holder = .free := hfree
    rw [hholder]
    trivial

/-- Every session is asked before it is waited for. -/
theorem Waits.step {r r' : State} {requested : List Nat} {as : List Action} (h : Waits r requested)
    (hadvance : r.advance = some (r', as)) :
    Waits r' (requested ++ Main.State.requests as) := by
  have hplace := h.place
  have hsessions := (State.advance_sessions hadvance).1
  have hmono : ∀ x ∈ requested, x ∈ requested ++ Main.State.requests as :=
    fun _ hx => List.mem_append_left _ hx
  have hm := moves_of_advance hadvance
  have hstart : r.holder ≠ .free := by
    intro hfree
    unfold State.advance at hadvance
    rw [hfree] at hadvance
    cases hadvance
  cases hm with
  | adopt hfree | reapFinished hfree | stopAll hfree => exact absurd hfree hstart
  | finish session => exact absurd hsessions.1 (List.cons_ne_self _ _)
  | exit session => exact absurd hsessions.2.1 (List.cons_ne_self _ _)
  | running it e hat he hrun => exact ⟨h.known, trivial⟩
  | ended it e hat he hended => exact ⟨h.known, e, he, hended⟩
  | endedThreadless it e hat he | reaped it e hat he =>
    exact ⟨fun x hx => h.known x (List.mem_of_mem_eraseIdx hx), trivial⟩
  | endReap it hat he => exact ⟨h.known, trivial⟩
  | requestStop i e hat he =>
    rw [hat] at hplace
    refine ⟨h.known, fun x hx => ?_⟩
    rw [List.take_add_one, he] at hx
    rcases List.mem_append.mp hx with hx | hx
    · exact hmono _ (hplace x hx)
    · rw [List.mem_singleton.mp hx]
      exact List.mem_append_right _ (List.mem_singleton.mpr rfl)
  | endRequests i hat he =>
    rw [hat] at hplace
    refine ⟨h.known, fun x hx => hmono _ (hplace x ?_)⟩
    rwa [List.take_of_length_le (List.getElem?_eq_none_iff.mp he)]
  | join i e hat he =>
    rw [hat] at hplace
    exact ⟨h.known, ⟨e, he⟩, fun x hx => hmono _ (hplace x hx)⟩
  | skip i e hat he =>
    rw [hat] at hplace
    exact ⟨h.known, fun x hx => hmono _ (hplace x hx)⟩
  | joined i e hat he =>
    rw [hat] at hplace
    have hsame : ∀ x ∈ r.entries.set i { e with joinable := false },
        ∃ y ∈ r.entries, x.session = y.session := by
      intro x hx
      rcases List.mem_or_eq_of_mem_set hx with hx | rfl
      · exact ⟨x, hx, rfl⟩
      · exact ⟨e, List.mem_of_getElem? he, rfl⟩
    refine ⟨fun x hx => ?_, fun x hx => ?_⟩
    · obtain ⟨y, hy, heq⟩ := hsame x hx
      rw [heq]
      exact h.known y hy
    · obtain ⟨y, hy, heq⟩ := hsame x hx
      rw [heq]
      exact hmono _ (hplace.2 y hy)
  | endStop i hat he => exact ⟨nofun, trivial⟩

end FaceTracking.Registry

namespace FaceTracking.Main

open Lib Registry

/-! ## The sessions that are waited for -/

variable {maxClients : Int32} {autoSnapshot : Bool}

/-- What every step but the signal keeps. -/
structure Keeps (s s' : State) : Prop where
  signalled : s'.signalled = s.signalled
  waits : Waits s.registry s.requested → Waits s'.registry s'.requested

theorem Keeps.refl (s : State) : Keeps s s := ⟨rfl, id⟩

theorem keeps_advance {s u : State} (hu : s.advance = some u) : Keeps s u := by
  obtain ⟨r, as, hr, rfl⟩ := State.advance_eq hu
  exact ⟨rfl, fun h => h.step hr⟩

theorem keeps_use (s : State) (w : Worker) (o : Outcome) : Keeps s (s.use w o) := by
  unfold State.use
  split
  · exact .refl s
  · split
    · exact .refl s
    · exact ⟨rfl, id⟩

theorem keeps_thread {s s' : State} {w : Worker} (hm : ThreadMoves autoSnapshot s w s') :
    Keeps s s' := by
  cases hm with
  | goto | ended => exact ⟨rfl, id⟩
  | use o hat =>
    obtain ⟨n, hn⟩ := State.snapshot_eq (s.use w o) autoSnapshot w o
    rw [hn]
    exact ⟨(keeps_use s w o).signalled, (keeps_use s w o).waits⟩
  | adopt hat hfree => exact ⟨rfl, fun h => h.adopt hfree⟩
  | reap hat hfree => exact ⟨rfl, fun h => ⟨h.known, trivial⟩⟩
  | reaping _ hat hu => exact keeps_advance hu
  | reaped u hat hu => exact ⟨(keeps_advance hu).signalled, (keeps_advance hu).waits⟩

theorem State.finish_of {s : State} {session : Nat} (hspawned : session < s.spawned)
    (hnot : session ∉ s.registry.finished) :
    s.finish session = some { s with
      registry := { s.registry with finished := session :: s.registry.finished } } := by
  unfold State.finish
  rw [if_pos ⟨hspawned, hnot⟩]
  rfl

theorem State.finish_eq {s s' : State} {session : Nat} (h : s.finish session = some s') :
    session ∉ s.registry.finished ∧ s' = { s with
      registry := { s.registry with finished := session :: s.registry.finished } } := by
  obtain ⟨⟨hspawned, hnot⟩, -⟩ := Option.ite_none_right_eq_some.mp h
  rw [finish_of hspawned hnot] at h
  exact ⟨hnot, (Option.some.inj h).symm⟩

theorem State.exit_of {s : State} {session : Nat} (hspawned : session < s.spawned)
    (hfinished : session ∈ s.registry.finished) (hnot : session ∉ s.registry.returned) :
    s.exit session = some { s with
      registry := { s.registry with returned := session :: s.registry.returned } } := by
  have hstep : s.registry.step (.exit session) =
      some { s.registry with returned := session :: s.registry.returned } := by
    show (if session ∈ s.registry.finished then
      some ({ s.registry with returned := session :: s.registry.returned }, ([] : List Action))
      else none).map Prod.fst = _
    rw [if_pos hfinished]
    rfl
  unfold State.exit
  rw [if_pos ⟨hspawned, hnot⟩, hstep]
  rfl

theorem State.exit_eq {s s' : State} {session : Nat} (h : s.exit session = some s') :
    session ∈ s.registry.finished ∧ s' = { s with
      registry := { s.registry with returned := session :: s.registry.returned } } := by
  obtain ⟨⟨hspawned, hnot⟩, heq⟩ := Option.ite_none_right_eq_some.mp h
  obtain ⟨r, hr, -⟩ := Option.map_eq_some_iff.mp heq
  obtain ⟨x, hreact, -⟩ := Option.map_eq_some_iff.mp hr
  obtain ⟨hfinished, -⟩ := Option.ite_none_right_eq_some.mp hreact
  rw [exit_of hspawned hfinished hnot] at h
  exact ⟨hfinished, (Option.some.inj h).symm⟩

theorem keeps_finish {s s' : State} {session : Nat} (hs' : s.finish session = some s') :
    Keeps s s' := by
  rw [(State.finish_eq hs').2]
  exact ⟨rfl, fun h => h.of_eq rfl rfl rfl fun _ hx => List.mem_cons_of_mem _ hx⟩

theorem keeps_exit {s s' : State} {session : Nat} (hs' : s.exit session = some s') :
    Keeps s s' := by
  rw [(State.exit_eq hs').2]
  exact ⟨rfl, fun h => h.of_eq rfl rfl rfl fun _ hx => hx⟩

theorem keeps_statement {s s' : State} {c : Statement} {next : Program} {ok : Bool}
    (hs' : s.perform next ok c = some s') : Keeps s s' := by
  cases c with
  | openDevice | closeDevice | bind | stop =>
    cases hs'
    exact ⟨rfl, id⟩
  | start w =>
    unfold State.perform at hs'
    simp only at hs'
    split at hs'
    · obtain ⟨t, -, rfl⟩ := Option.map_eq_some_iff.mp hs'
      exact ⟨rfl, id⟩
    · cases hs'
      exact ⟨rfl, id⟩
  | join w =>
    obtain ⟨t, -, rfl⟩ := Option.map_eq_some_iff.mp hs'
    exact ⟨rfl, id⟩
  | awaitSignal =>
    obtain ⟨-, heq⟩ := Option.ite_none_right_eq_some.mp hs'
    cases heq
    exact ⟨rfl, id⟩
  | stopAll =>
    obtain ⟨r, hr, rfl⟩ := Option.map_eq_some_iff.mp hs'
    obtain ⟨hfree, rfl, -⟩ := Registry.State.stopAll_of_step hr
    exact ⟨rfl, fun h => ⟨h.known, nofun⟩⟩
  | stoppingAll =>
    obtain ⟨u, hu, rfl⟩ := Option.map_eq_some_iff.mp hs'
    have hkeeps := keeps_advance hu
    split
    · exact ⟨hkeeps.signalled, hkeeps.waits⟩
    · exact hkeeps

theorem keeps_attempted (s : State) (ok : Bool) (a : Attempt) : Keeps s (s.attempted ok a) := by
  cases a with
  | bindServer =>
    unfold State.attempted
    simp only
    split
    · exact ⟨rfl, id⟩
    · exact .refl s
  | openCamera | loadDetector | createTls => exact ⟨rfl, id⟩

/-- A step is the signal, or it keeps the signal and what an operation waits for. -/
theorem keeps_step {s s' : State} {e : Event} (hstep : s.step maxClients autoSnapshot e = some s') :
    e = .signal ∧ s' = { s with signalled := true } ∨ Keeps s s' := by
  cases e with
  | signal =>
    cases hstep
    exact .inl ⟨rfl, rfl⟩
  | main ok =>
    refine .inr ?_
    unfold State.step State.mainStep at hstep
    simp only at hstep
    split at hstep
    · cases hstep
    · exact keeps_statement hstep
    · rename_i a yes no _
      cases hstep
      have hkeeps := keeps_attempted { s with program := if ok then yes else no } ok a
      exact ⟨hkeeps.signalled, hkeeps.waits⟩
  | run w o => exact .inr (keeps_thread (threadMoves hstep))
  | hangUp session => exact .inr (keeps_finish hstep)
  | obey session =>
    obtain ⟨-, heq⟩ := Option.ite_none_right_eq_some.mp hstep
    exact .inr (keeps_finish heq)
  | exit session => exact .inr (keeps_exit hstep)
  | saved =>
    obtain ⟨-, heq⟩ := Option.ite_none_right_eq_some.mp hstep
    cases heq
    exact .inr ⟨rfl, id⟩

theorem waits_of_play {cfg : Listeners} {s : State} {es : List Event}
    (h : play (State.step maxClients autoSnapshot) (.initial cfg) es = some s) :
    Waits s.registry s.requested := by
  refine invariant (State.step maxClients autoSnapshot) (I := fun s => Waits s.registry s.requested)
    (P := fun _ _ => True) (fun s e s' hs _ hstep => ?_)
    ⟨fun _ he => absurd he List.not_mem_nil, trivial⟩
    (.of_forall (State.step maxClients autoSnapshot) (fun _ _ => trivial) (.initial cfg) es) h
  rcases keeps_step hstep with ⟨-, rfl⟩ | hkeeps
  · exact hs
  · exact hkeeps.waits hs

/-! ## Driving the machine -/

/-- What every state behind the signal has. -/
structure Signalled (s : State) : Prop extends Inv s where
  waits : Waits s.registry s.requested
  signalled : s.signalled = true

theorem Signalled.step {s s' : State} {e : Event} (h : Signalled s)
    (hstep : s.step maxClients autoSnapshot e = some s') : Signalled s' := by
  refine ⟨h.toInv.step hstep, ?_, ?_⟩
  · rcases keeps_step hstep with ⟨-, rfl⟩ | hkeeps
    · exact h.waits
    · exact hkeeps.waits h.waits
  · rcases keeps_step hstep with ⟨-, rfl⟩ | hkeeps
    · rfl
    · exact hkeeps.signalled.trans h.signalled

/-- What is reached behind the signal is reached in a state behind the signal.
-/
theorem Signalled.keep {s : State} {G : State → Prop} (h : Signalled s)
    (hdriven : Driven (State.step maxClients autoSnapshot) Event.turn G s) :
    Driven (State.step maxClients autoSnapshot) Event.turn (fun s => G s ∧ Signalled s) s :=
  hdriven.keep (fun _ _ _ hs hstep => hs.step hstep) h

/-! ### Sessions -/

/-- The state with more sessions that have finished and returned. -/
def Later (s s' : State) : Prop :=
  ∃ finished returned, s' = { s with registry := { s.registry with finished, returned } }

namespace Later

variable {s s' : State} (h : Later s s')
include h

theorem program : s'.program = s.program := by
  obtain ⟨_, _, rfl⟩ := h
  rfl

theorem threads : s'.threads = s.threads := by
  obtain ⟨_, _, rfl⟩ := h
  rfl

theorem holder : s'.registry.holder = s.registry.holder := by
  obtain ⟨_, _, rfl⟩ := h
  rfl

theorem waitsFor : s'.registry.waitsFor = s.registry.waitsFor := by
  obtain ⟨_, _, rfl⟩ := h
  rfl

theorem left : Registry.left s'.registry = Registry.left s.registry := by
  obtain ⟨_, _, rfl⟩ := h
  rfl

end Later

theorem turn_session {e : Event} {session : Nat} (h : e.turn = some (.session session)) :
    e = .obey session ∨ e = .exit session := by
  cases e with
  | obey x =>
    injection h with h
    injection h with h
    exact .inl (congrArg Event.obey h)
  | exit x =>
    injection h with h
    injection h with h
    exact .inr (congrArg Event.exit h)
  | signal | hangUp => cases h
  | main | run | saved =>
    injection h with h
    cases h

/-- A session that has finished, or has been asked to, returns. -/
theorem drive_session {s : State} {session : Nat} (hadopted : session < s.registry.adopted)
    (hrunning : session ∉ s.registry.returned)
    (hasked : session ∈ s.registry.finished ∨ session ∈ s.requested) :
    Driven (State.step maxClients autoSnapshot) Event.turn
      (fun s' => Later s s' ∧ session ∈ s'.registry.returned) s := by
  have hspawned : session < s.spawned := Nat.lt_add_right _ hadopted
  have hexit : ∀ u : State, Later s u → session ∈ u.registry.finished →
      session ∉ u.registry.returned → Driven (State.step maxClients autoSnapshot) Event.turn
        (fun s' => Later s s' ∧ session ∈ s'.registry.returned) u := by
    rintro u ⟨finished, returned, rfl⟩ hfinished hnot
    refine .one (.session session) ⟨.exit session, _, rfl, State.exit_of hspawned hfinished hnot⟩ ?_
    intro e s' he hs'
    rcases turn_session he with rfl | rfl
    · obtain ⟨-, hfin⟩ := Option.ite_none_right_eq_some.mp hs'
      exact absurd hfinished (State.finish_eq hfin).1
    · rw [(State.exit_eq hs').2]
      exact ⟨⟨_, _, rfl⟩, List.mem_cons_self⟩
  by_cases hfinished : session ∈ s.registry.finished
  · exact hexit s ⟨_, _, rfl⟩ hfinished hrunning
  · have hrequested := hasked.resolve_left hfinished
    have hobey : s.step maxClients autoSnapshot (.obey session) = some { s with
        registry := { s.registry with finished := session :: s.registry.finished } } := by
      show (if session ∈ s.requested then s.finish session else none) = _
      rw [if_pos hrequested, State.finish_of hspawned hfinished]
    refine .next (.session session) ⟨.obey session, _, rfl, hobey⟩ ?_
    intro e s' he hs'
    rcases turn_session he with rfl | rfl
    · rw [hobey] at hs'
      rw [← Option.some.inj hs']
      exact hexit _ ⟨_, _, rfl⟩ List.mem_cons_self hrunning
    · exact absurd (State.exit_eq hs').1 hfinished

/-! ### The mutex -/

/-- The operation in the mutex gets to where it can go on. -/
theorem drive_ready {s : State} (h : Signalled s) (hheld : s.registry.holder ≠ .free) :
    Driven (State.step maxClients autoSnapshot) Event.turn
      (fun s' => Later s s' ∧ ∃ u, s'.advance = some u) s := by
  have hready : ∀ {u : State}, (∃ r as, u.registry.advance = some (r, as)) →
      ∃ v, u.advance = some v := by
    rintro u ⟨r, as, hr⟩
    exact ⟨_, congrArg (Option.map _) hr⟩
  rcases h.waits.advance hheld with hcan | ⟨session, hadopted, hwaits, hrunning, hasked⟩
  · exact .here ⟨⟨_, _, rfl⟩, hready hcan⟩
  · refine Driven.mono (h.keep (drive_session hadopted hrunning hasked)) ?_
    rintro s' ⟨⟨hlater, hover⟩, hs'⟩
    refine ⟨hlater, hready ?_⟩
    -- it waits for no other session
    have hheld' : s'.registry.holder ≠ .free := by
      rw [hlater.holder]
      exact hheld
    rcases hs'.waits.advance hheld' with hcan | ⟨session', -, hwaits', hrunning', -⟩
    · exact hcan
    · rw [hlater.waitsFor, hwaits] at hwaits'
      rw [Option.some.inj hwaits'] at hover
      exact absurd hover hrunning'

theorem turn_run {e : Event} {w : Worker} (h : e.turn = some (.run w)) : ∃ o, e = .run w o := by
  cases e with
  | run v o =>
    injection h with h
    injection h with h
    exact ⟨o, congrArg (Event.run · o) h⟩
  | signal | hangUp => cases h
  | main | obey | exit | saved =>
    injection h with h
    cases h

/-- A thread that can take a step whatever its calls return is driven to where
they lead. -/
theorem drive_turn {s : State} (w : Worker) {G : State → Prop}
    (h : ∀ o, ∃ s', s.threadStep maxClients autoSnapshot w o = some s' ∧ G s') :
    Driven (State.step maxClients autoSnapshot) Event.turn G s := by
  obtain ⟨s', hs', -⟩ := h .nothing
  refine .one (.run w) ⟨.run w .nothing, s', rfl, hs'⟩ ?_
  intro e u he hu
  obtain ⟨o, rfl⟩ := turn_run he
  obtain ⟨v, hv, hG⟩ := h o
  have hsame : some v = some u := hv.symm.trans hu
  exact Option.some.inj hsame ▸ hG

theorem goto_threads {s u : State} (h : u.threads = s.threads) (w : Worker) (place : Place) :
    (u.goto w place).threads = (s.goto w place).threads := by
  unfold State.goto State.setThread
  simp only [h]

theorem threadStep_reaping {s u : State} {w : Worker} (hat : (s.threads w).thread = .live .reaping)
    (hu : s.advance = some u) (o : Outcome) : s.threadStep maxClients autoSnapshot w o =
      some (if u.registry.holder = .free then u.goto w .check else u) := by
  unfold State.threadStep
  rw [hat, hu]
  rfl

/-- A pass over the registry ends. -/
theorem drive_reap {s : State} {w : Worker} (h : Signalled s)
    (hat : (s.threads w).thread = .live .reaping) :
    Driven (State.step maxClients autoSnapshot) Event.turn
      (fun s' => s'.registry.holder = .free ∧ s'.program = s.program ∧
        s'.threads = (s.goto w .check).threads) s := by
  refine Driven.measure (I := fun u => Signalled u ∧ u.program = s.program ∧ u.threads = s.threads)
    (fun u => left u.registry) ?_ ⟨h, rfl, rfl⟩
  rintro u ⟨hu, hprogram, hthreads⟩
  have hat' : (u.threads w).thread = .live .reaping := by rw [hthreads, hat]
  have hheld : u.registry.holder ≠ .free := by
    intro hfree
    have hreap := hu.mutex.reaping w hat'
    rw [hfree] at hreap
    cases hreap
  refine (hu.keep (drive_ready hu hheld)).trans ?_
  rintro u' ⟨⟨hlater, v, hv⟩, hu'⟩
  have hat'' : (u'.threads w).thread = .live .reaping := by rw [hlater.threads, hat']
  have hturn : Driven (State.step maxClients autoSnapshot) Event.turn
      (fun s' => (s'.registry.holder = .free ∧ s'.program = s.program ∧
          s'.threads = (s.goto w .check).threads) ∨
        (s'.program = s.program ∧ s'.threads = s.threads ∧ left s'.registry < left u.registry))
      u' := by
    refine drive_turn w fun o => ⟨_, threadStep_reaping hat'' hv o, ?_⟩
    obtain ⟨r, as, hr, rfl⟩ := State.advance_eq hv
    have hprogram' := hlater.program.trans hprogram
    have hthreads' := hlater.threads.trans hthreads
    split
    · exact .inl ⟨‹_›, hprogram', goto_threads hthreads' w .check⟩
    · refine .inr ⟨hprogram', hthreads', ?_⟩
      rw [← hlater.left]
      exact left_lt hr
  refine (hu'.keep hturn).mono ?_
  rintro s' ⟨hG | ⟨hp, ht, hlt⟩, hs'⟩
  · exact .inl hG
  · exact .inr ⟨⟨hs', hp, ht⟩, hlt⟩

/-- The mutex comes free, and the threads outside it stay where they are. -/
theorem drive_free {s : State} (h : Signalled s)
    (hnot : ∀ next, s.program ≠ .step .stoppingAll next) :
    Driven (State.step maxClients autoSnapshot) Event.turn
      (fun s' => s'.registry.holder = .free ∧ s'.program = s.program ∧
        ∀ v, (s.threads v).thread ≠ .live .reaping → s'.threads v = s.threads v) s := by
  rcases Holder.cases_of s.registry.holder with hfree | hreap | hstop
  · exact .here ⟨hfree, rfl, fun _ _ => rfl⟩
  · obtain ⟨w, hw⟩ := h.mutex.owner hreap
    have hat := (hw w).mpr rfl
    refine (drive_reap h hat).mono ?_
    rintro s' ⟨hfree, hprogram, hthreads⟩
    refine ⟨hfree, hprogram, fun v hv => ?_⟩
    have hvw : v ≠ w := by
      rintro rfl
      exact hv hat
    rw [hthreads]
    exact State.setThread_ne _ hvw _
  · obtain ⟨next, hnext⟩ := h.mutex.stopping.mp hstop
    exact absurd hnext (hnot next)

/-! ### Threads -/

/-- The steps to the end of `run` for a thread that has been stopped. -/
def Place.toEnd : Place → Nat
  | .closing => 1
  | .check => 2
  | .body | .reaping => 3
  | .reap => 4
  | .adopting => 5
  | .spawning => 6
  | .counting => 7
  | .accepting => 8
  | .polling => 9

def Thread.toEnd : Thread → Nat
  | .live place => place.toEnd
  | .absent | .ended => 0

/-- A thread that has been stopped and is closer to its end. -/
def Nearer (s s' : State) (w : Worker) (n : Nat) : Prop :=
  s'.program = s.program ∧ (s'.threads w).running = (s.threads w).running ∧
    (s'.threads w).thread ≠ .absent ∧ (s'.threads w).thread.toEnd < n

theorem nearer_goto {s u : State} {w : Worker} (hprogram : u.program = s.program)
    (hrunning : (u.threads w).running = (s.threads w).running) {place : Place} {n : Nat}
    (hn : place.toEnd < n) : Nearer s (u.goto w place) w n := by
  refine ⟨hprogram, ?_, ?_, ?_⟩
  · rw [State.goto, State.setThread_same]
    exact hrunning
  · rw [State.goto, State.setThread_same]
    intro hnone
    cases hnone
  · rw [State.goto, State.setThread_same]
    exact hn

theorem nearer_ended (s : State) (w : Worker) {n : Nat} (hn : 0 < n) :
    Nearer s (s.setThread w { s.threads w with thread := .ended }) w n := by
  refine ⟨rfl, ?_, ?_, ?_⟩
  · rw [State.setThread_same]
  · rw [State.setThread_same]
    intro hnone
    cases hnone
  · rw [State.setThread_same]
    exact hn

/-- A stopped thread gets on, whatever its calls return. -/
theorem drive_nearer {s : State} {w : Worker} {place : Place} (h : Signalled s)
    (hnot : ∀ next, s.program ≠ .step .stoppingAll next)
    (hstopped : (s.threads w).running = false) (hat : (s.threads w).thread = .live place) :
    Driven (State.step maxClients autoSnapshot) Event.turn
      (fun s' => Nearer s s' w place.toEnd) s := by
  -- with the mutex free
  have hfree : ∀ {p : Place} {n : Nat}, p ≠ .reaping → (s.threads w).thread = .live p →
      (∀ u : State, u.registry.holder = .free → (u.threads w).thread = .live p → ∀ o,
        ∃ s', u.threadStep maxClients autoSnapshot w o = some s' ∧ Nearer u s' w n) →
      Driven (State.step maxClients autoSnapshot) Event.turn (fun s' => Nearer s s' w n) s := by
    intro p n hp hat hturn
    refine (drive_free h hnot).trans ?_
    rintro u ⟨hu, hprogram, hthreads⟩
    have hsame : u.threads w = s.threads w := by
      refine hthreads w ?_
      rw [hat]
      exact fun heq => hp (Thread.live.inj heq)
    refine (drive_turn w (hturn u hu (by rw [hsame, hat]))).mono ?_
    rintro s' ⟨hp', hr', hrest⟩
    exact ⟨hp'.trans hprogram, hr'.trans (congrArg StoppableThread.running hsame), hrest⟩
  cases place with
  | closing =>
    refine drive_turn w fun o => ⟨_, ?_, nearer_ended s w (by decide)⟩
    unfold State.threadStep
    rw [hat]
  | check =>
    refine drive_turn w fun o => ?_
    unfold State.threadStep
    rw [hat]
    simp only
    rw [if_neg (Bool.eq_false_iff.mp hstopped)]
    split
    · exact ⟨_, rfl, nearer_goto rfl rfl (by decide)⟩
    · exact ⟨_, rfl, nearer_ended s w (by decide)⟩
  | body =>
    refine drive_turn w fun o =>
      ⟨((s.use w o).snapshot autoSnapshot w o).goto w .check, ?_, ?_⟩
    · unfold State.threadStep
      rw [hat]
    · have huse : (s.use w o).program = s.program ∧ (s.use w o).threads = s.threads := by
        unfold State.use
        split
        · exact ⟨rfl, rfl⟩
        · split
          · exact ⟨rfl, rfl⟩
          · exact ⟨rfl, rfl⟩
      obtain ⟨n, hn⟩ := State.snapshot_eq (s.use w o) autoSnapshot w o
      rw [hn]
      exact nearer_goto huse.1 (by rw [huse.2]) (by decide)
  | polling =>
    refine drive_turn w fun o => ?_
    unfold State.threadStep
    rw [hat]
    cases o with
    | nothing | ready | interrupted | failed =>
      exact ⟨_, rfl, nearer_goto rfl rfl (by decide)⟩
  | accepting =>
    refine drive_turn w fun o => ?_
    unfold State.threadStep
    rw [hat]
    simp only
    split
    · exact ⟨_, rfl, nearer_goto rfl rfl (by decide)⟩
    · exact ⟨_, rfl, nearer_goto rfl rfl (by decide)⟩
  | counting =>
    refine hfree (p := .counting) nofun hat fun u hu hat o => ?_
    unfold State.threadStep
    rw [hat]
    simp only
    rw [if_pos hu]
    split
    · exact ⟨_, rfl, nearer_goto rfl rfl (by decide)⟩
    · exact ⟨_, rfl, nearer_goto rfl rfl (by decide)⟩
  | spawning =>
    refine drive_turn w fun o => ⟨s.goto w .adopting, ?_, nearer_goto rfl rfl (by decide)⟩
    unfold State.threadStep
    rw [hat]
  | adopting =>
    refine hfree (p := .adopting) nofun hat fun u hu hat o => ?_
    unfold State.threadStep
    rw [hat]
    simp only
    rw [Registry.State.step_adopt hu]
    exact ⟨_, rfl, nearer_goto rfl rfl (by decide)⟩
  | reap =>
    refine hfree (p := .reap) nofun hat fun u hu hat o => ?_
    unfold State.threadStep
    rw [hat]
    simp only
    rw [Registry.State.step_reapFinished hu]
    exact ⟨_, rfl, nearer_goto rfl rfl (by decide)⟩
  | reaping =>
    refine (drive_reap h hat).mono ?_
    rintro s' ⟨-, hprogram, hthreads⟩
    have hcheck : Nearer s (s.goto w .check) w Place.reaping.toEnd :=
      nearer_goto rfl rfl (by decide)
    unfold Nearer at hcheck ⊢
    rw [hthreads]
    exact ⟨hprogram, hcheck.2⟩

/-- A stopped thread returns from `run`. -/
theorem drive_worker {s : State} {w : Worker} (h : Signalled s)
    (hnot : ∀ next, s.program ≠ .step .stoppingAll next)
    (hstopped : (s.threads w).running = false) (hlive : (s.threads w).thread ≠ .absent) :
    Driven (State.step maxClients autoSnapshot) Event.turn
      (fun s' => s'.program = s.program ∧ (s'.threads w).thread = .ended) s := by
  refine Driven.measure (I := fun u => Signalled u ∧ u.program = s.program ∧
    (u.threads w).running = false ∧ (u.threads w).thread ≠ .absent)
    (fun u => (u.threads w).thread.toEnd) ?_ ⟨h, rfl, hstopped, hlive⟩
  rintro u ⟨hu, hprogram, hstopped, hlive⟩
  cases hat : (u.threads w).thread with
  | absent => exact absurd hat hlive
  | ended => exact .here (.inl ⟨hprogram, hat⟩)
  | live place =>
    have hnot' : ∀ next, u.program ≠ .step .stoppingAll next := by
      rw [hprogram]
      exact hnot
    refine (hu.keep (drive_nearer hu hnot' hstopped hat)).mono ?_
    rintro s' ⟨⟨hp, hr, hthere, hlt⟩, hs'⟩
    exact .inr ⟨⟨hs', hp.trans hprogram, hr.trans hstopped, hthere⟩, hlt⟩

/-! ### Main -/

/-- The statements before `main`, on the longest way; `stopAll` counts twice. -/
def Program.size : Program → Nat
  | .done => 0
  | .step .stopAll next => next.size + 2
  | .step _ next => next.size + 1
  | .attempt _ yes no => yes.size + no.size + 1

theorem turn_main {e : Event} (h : e.turn = some .main) : ∃ ok, e = .main ok := by
  cases e with
  | main ok => exact ⟨ok, rfl⟩
  | signal | hangUp => cases h
  | run | obey | exit | saved =>
    injection h with h
    cases h

theorem turn_snapshot {e : Event} (h : e.turn = some .snapshot) : e = .saved := by
  cases e with
  | saved => rfl
  | signal | hangUp => cases h
  | main | run | obey | exit =>
    injection h with h
    cases h

/-- The snapshots that are being saved get saved, and nothing else happens. -/
theorem drive_snapshots (s : State) :
    Driven (State.step maxClients autoSnapshot) Event.turn
      (fun s' => s' = { s with snapshots := 0 }) s := by
  refine Driven.measure (I := fun u => u = { s with snapshots := u.snapshots }) State.snapshots
    ?_ rfl
  intro u hu
  by_cases hzero : u.snapshots = 0
  · refine .here (.inl ?_)
    rw [hzero] at hu
    exact hu
  · have hsaved : u.step maxClients autoSnapshot .saved =
        some { u with snapshots := u.snapshots - 1 } := if_pos (Nat.pos_of_ne_zero hzero)
    refine .one .snapshot ⟨.saved, _, rfl, hsaved⟩ ?_
    intro e s' he hs'
    rw [turn_snapshot he, hsaved] at hs'
    rw [← Option.some.inj hs']
    refine .inr ⟨?_, Nat.sub_one_lt hzero⟩
    rw [hu]

/-- `main` is given its turn when no snapshot is being saved, and takes a step
whatever its call returns. -/
theorem drive_main_turn {s : State} {G : State → Prop}
    (hG : ∀ u n, G u → G { u with snapshots := n })
    (h : ∀ ok, ∃ s', s.mainStep ok = some s' ∧ G s') :
    Driven (State.step maxClients autoSnapshot) Event.turn
      (fun s' => G s' ∧ s'.snapshots = 0) s := by
  refine (drive_snapshots s).trans ?_
  rintro _ rfl
  obtain ⟨s', hs', -⟩ := h true
  refine .one .main ⟨.main true, _, rfl, mainStep_withSnapshots hs' 0⟩ ?_
  intro e u he hu
  obtain ⟨ok, rfl⟩ := turn_main he
  obtain ⟨v, hv, hGv⟩ := h ok
  have hsame : some { v with snapshots := 0 } = some u :=
    (mainStep_withSnapshots hv 0).symm.trans hu
  rw [← Option.some.inj hsame]
  exact ⟨hG v 0 hGv, rfl⟩

theorem mainStep_statement {s : State} {c : Statement} {next : Program}
    (hprogram : s.program = .step c next) (ok : Bool) : s.mainStep ok = s.perform next ok c := by
  unfold State.mainStep
  rw [hprogram]

theorem attempted_program (s : State) (ok : Bool) (a : Attempt) :
    (s.attempted ok a).program = s.program := by
  cases a with
  | openCamera | loadDetector | createTls => rfl
  | bindServer =>
    unfold State.attempted
    cases ok <;> rfl

/-- `stopAll` ends. -/
theorem drive_stop {s : State} {next : Program} (h : Signalled s)
    (hprogram : s.program = .step .stoppingAll next) :
    Driven (State.step maxClients autoSnapshot) Event.turn
      (fun s' => s'.program = next ∧ s'.snapshots = 0) s := by
  refine Driven.measure (I := fun u => Signalled u ∧ u.program = .step .stoppingAll next)
    (fun u => left u.registry) ?_ ⟨h, hprogram⟩
  rintro u ⟨hu, hp⟩
  have hheld : u.registry.holder ≠ .free := by
    intro hfree
    have hstop := hu.mutex.stopping.mpr ⟨next, hp⟩
    rw [hfree] at hstop
    cases hstop
  refine (hu.keep (drive_ready hu hheld)).trans ?_
  rintro u' ⟨⟨hlater, v, hv⟩, hu'⟩
  have hp' : u'.program = .step .stoppingAll next := hlater.program.trans hp
  have hturn : Driven (State.step maxClients autoSnapshot) Event.turn
      (fun s' => (s'.program = next ∨
        (s'.program = .step .stoppingAll next ∧ left s'.registry < left u.registry)) ∧
          s'.snapshots = 0) u' := by
    refine drive_main_turn (fun _ _ h => h) fun ok =>
      ⟨if v.registry.holder = .free then { v with program := next } else v, ?_, ?_⟩
    · rw [mainStep_statement hp']
      exact congrArg (Option.map _) hv
    · obtain ⟨r, as, hr, rfl⟩ := State.advance_eq hv
      split
      · exact .inl rfl
      · refine .inr ⟨hp', ?_⟩
        rw [← hlater.left]
        exact left_lt hr
  refine (hu'.keep hturn).mono ?_
  rintro s' ⟨⟨hG | ⟨hp, hlt⟩, hzero⟩, hs'⟩
  · exact .inl ⟨hG, hzero⟩
  · exact .inr ⟨⟨hs', hp⟩, hlt⟩

/-- A thread that is stopped can be joined. -/
theorem drive_join {s : State} {w : Worker} {next : Program} (h : Signalled s)
    (hprogram : s.program = .step (.join w) next) (hstopped : (s.threads w).running = false) :
    Driven (State.step maxClients autoSnapshot) Event.turn
      (fun s' => s'.program = next ∧ s'.snapshots = 0) s := by
  have hnot : ∀ next, s.program ≠ .step .stoppingAll next := by
    intro next' heq
    rw [hprogram] at heq
    cases heq
  have hjoin : ∀ u : State, u.program = .step (.join w) next →
      ((u.threads w).thread = .absent ∨ (u.threads w).thread = .ended) →
        Driven (State.step maxClients autoSnapshot) Event.turn
          (fun s' => s'.program = next ∧ s'.snapshots = 0) u := by
    intro u hp hover
    obtain ⟨t, ht⟩ : ∃ t, (u.threads w).join = some t := by
      unfold StoppableThread.join
      rcases hover with hover | hover
      · rw [hover]
        exact ⟨_, rfl⟩
      · rw [hover]
        exact ⟨_, rfl⟩
    refine drive_main_turn (fun _ _ h => h) fun ok =>
      ⟨({ u with program := next } : State).setThread w t, ?_, rfl⟩
    rw [mainStep_statement hp]
    exact congrArg (Option.map _) ht
  by_cases habsent : (s.threads w).thread = .absent
  · exact hjoin s hprogram (.inl habsent)
  · refine (drive_worker h hnot hstopped habsent).trans ?_
    rintro u ⟨hp, hover⟩
    exact hjoin u (hp.trans hprogram) (.inr hover)

/-- Whatever `main` is at, it gets past it, with no snapshot left to save. -/
theorem drive_statement {s : State} {c : Statement} {next : Program} (h : Signalled s)
    (hprogram : s.program = .step c next) :
    Driven (State.step maxClients autoSnapshot) Event.turn
      (fun s' => s'.program.size < s.program.size ∧ s'.snapshots = 0) s := by
  obtain ⟨k, hk, ha⟩ := h.known
  have hnext : ∀ {u : State}, c ≠ .stopAll → u.program = next → u.program.size < s.program.size := by
    intro u hc hu
    rw [hu, hprogram]
    cases c with
    | stopAll => exact absurd rfl hc
    | _ => exact Nat.lt_succ_self _
  have hpermits : c ≠ .stoppingAll → k.permits c = true := by
    intro hc
    have htext : s.program.text = .step c next := by
      rw [hprogram]
      cases c with
      | stoppingAll => exact absurd rfl hc
      | _ => rfl
    rw [htext] at hk
    exact ((Bool.and_eq_true _ _).mp hk).1
  have hat_once : c ≠ .stopAll → (∀ ok, ∃ s', s.perform next ok c = some s' ∧ s'.program = next) →
      Driven (State.step maxClients autoSnapshot) Event.turn
        (fun s' => s'.program.size < s.program.size ∧ s'.snapshots = 0) s := by
    intro hc hturn
    refine drive_main_turn (fun _ _ h => h) fun ok => ?_
    obtain ⟨s', hs', hp⟩ := hturn ok
    exact ⟨s', (mainStep_statement hprogram ok).trans hs', hnext hc hp⟩
  cases c with
  | openDevice | closeDevice | bind | stop => exact hat_once nofun fun ok => ⟨_, rfl, rfl⟩
  | awaitSignal =>
    refine hat_once nofun fun ok => ⟨{ s with program := next }, ?_, rfl⟩
    exact if_pos h.signalled
  | start w =>
    refine hat_once nofun fun ok => ?_
    unfold State.perform
    simp only
    split
    · -- it has not been started before
      have hp := hpermits nofun
      unfold Known.permits at hp
      simp only [Bool.and_eq_true, Bool.not_eq_true', List.contains_eq_mem,
        decide_eq_false_iff_not] at hp
      have habsent := ha.absent w hp.1.1.1
      obtain ⟨t, ht⟩ : ∃ t, (s.threads w).start = some t := by
        unfold StoppableThread.start
        rw [if_pos habsent]
        split
        · exact ⟨_, rfl⟩
        · exact ⟨_, rfl⟩
      rw [ht]
      exact ⟨_, rfl, rfl⟩
    · exact ⟨_, rfl, rfl⟩
  | join w =>
    have hp : k.stopped.contains w = true := hpermits nofun
    have hstopped := ha.stopped w (List.contains_iff_mem.mp hp)
    exact (drive_join h hprogram hstopped).mono fun s' hs' => ⟨hnext nofun hs'.1, hs'.2⟩
  | stopAll =>
    have hnot : ∀ next, s.program ≠ .step .stoppingAll next := by
      intro next' heq
      rw [hprogram] at heq
      cases heq
    refine (drive_free h hnot).trans ?_
    rintro u ⟨hfree, hp, -⟩
    refine drive_main_turn (fun _ _ h => h) fun ok => ⟨{ u with
      registry := { u.registry with holder := .stopping 0 }
      program := .step .stoppingAll next }, ?_, ?_⟩
    · rw [mainStep_statement (hp.trans hprogram)]
      exact congrArg (Option.map _) (Registry.State.step_stopAll hfree)
    · rw [hprogram]
      exact Nat.lt_succ_self _
  | stoppingAll =>
    exact (drive_stop h hprogram).mono fun s' hs' => ⟨hnext nofun hs'.1, hs'.2⟩

/-! ## Main result -/

/-- **Shutting down.** From wherever a run has led once the signal has come, with
any number of clients connected, idle or in the middle of anything: `main` can be
brought to its end by scheduling its own threads, the sessions and the snapshots
alone, whatever `poll`, `accept` and the other calls return on the way, and then no
thread that `main` owns and no session is left, nor a snapshot that is being saved
unless `main` had ended before. No client has to hang up for it, and no thread
waits forever. -/
theorem shutdown_completes (cfg : Listeners) {s : State} {es : List Event}
    (h : play (State.step maxClients autoSnapshot) (.initial cfg) es = some s)
    (hsignal : s.signalled = true) :
    Driven (State.step maxClients autoSnapshot) Event.turn
      (fun s' => s'.program = .done ∧ Deserted s' ∧ (s.program ≠ .done → s'.snapshots = 0)) s := by
  have hs : Signalled s := ⟨inv_of_play h, waits_of_play h, hsignal⟩
  -- behind a step of `main` no snapshot is being saved
  refine Driven.measure (I := fun u => Signalled u ∧ (u = s ∨ u.snapshots = 0))
    (fun u => u.program.size) ?_ ⟨hs, .inl rfl⟩
  rintro u ⟨hu, hzero⟩
  cases hp : u.program with
  | done =>
    refine .here (.inl ⟨hp, hu.deserted (.inr hp), fun hbefore => ?_⟩)
    rcases hzero with rfl | hzero
    · exact absurd hp hbefore
    · exact hzero
  | step c next =>
    refine (hu.keep (drive_statement hu hp)).mono ?_
    rintro s' ⟨⟨hlt, hzero'⟩, hs'⟩
    rw [hp] at hlt
    exact .inr ⟨⟨hs', .inr hzero'⟩, hlt⟩
  | attempt a yes no =>
    have hturn : Driven (State.step maxClients autoSnapshot) Event.turn
        (fun s' => s'.program.size < (Program.attempt a yes no).size ∧ s'.snapshots = 0) u := by
      refine drive_main_turn (fun _ _ h => h) fun ok =>
        ⟨({ u with program := if ok then yes else no } : State).attempted ok a, ?_, ?_⟩
      · unfold State.mainStep
        rw [hp]
      · rw [attempted_program]
        show (if ok then yes else no).size < yes.size + no.size + 1
        split <;> omega
    refine (hu.keep hturn).mono ?_
    rintro s' ⟨⟨hlt, hzero'⟩, hs'⟩
    exact .inr ⟨⟨hs', .inr hzero'⟩, hlt⟩

/-- The signal comes while a client is connected and a snapshot is being saved. -/
def interrupted : State :=
  (play (State.step 8 true) (.initial ⟨false, false⟩) (oneClient.take 24)).getD
    (.initial ⟨false, false⟩)

theorem shutdown_completes_one_client :
    interrupted.spawned = 1 ∧ interrupted.registry.returned = [] ∧ interrupted.snapshots = 1 ∧
      Driven (State.step 8 true) Event.turn
        (fun s' => s'.program = .done ∧ Deserted s' ∧ s'.snapshots = 0) interrupted := by
  have hplay : play (State.step 8 true) (.initial ⟨false, false⟩) (oneClient.take 24) =
      some interrupted := by
    have hsome : (play (State.step 8 true) (.initial ⟨false, false⟩)
        (oneClient.take 24)).isSome = true := by
      decide +kernel
    obtain ⟨s, hs⟩ := Option.isSome_iff_exists.mp hsome
    rw [interrupted, hs]
    rfl
  refine ⟨by decide +kernel, by decide +kernel, by decide +kernel, ?_⟩
  refine (shutdown_completes ⟨false, false⟩ hplay (by decide +kernel)).mono ?_
  exact fun s' ⟨hdone, hdeserted, hzero⟩ => ⟨hdone, hdeserted, hzero (by decide +kernel)⟩

end FaceTracking.Main
