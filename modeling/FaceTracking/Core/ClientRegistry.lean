import FaceTracking.Lib.Runs

/-!
# The client registry, statement by statement

The registry owns the sessions and the threads they run on. Its operations
hold its mutex, but a session sets its `finished` flag without it, at any
moment: between two operations, between two entries of a pass over the
registry, or while the pass waits for a thread. So an operation that looks at
sessions is a sequence of steps here, and `Holder` says how far it has got.
Adopting a session looks at none and is one step.

A session is known by the number of its adoption. What the operations do to
sessions and threads is a list of actions.
-/

namespace FaceTracking.Registry

open Lib

/-- A session, and whether its thread can still be joined. -/
structure Entry where
  session : Nat
  joinable : Bool
deriving DecidableEq, Repr

/-- Who holds the mutex, and where it is. -/
inductive Holder where
  | free
  /-- `reapFinished`, about to look at the entry `it` points to. -/
  | reaping (it : Nat)
  /-- `reapFinished`, waiting for the thread of that entry. -/
  | reapJoin (it : Nat)
  /-- The first loop of `stopAll`. -/
  | stopping (i : Nat)
  /-- Its second loop. -/
  | joining (i : Nat)
  /-- Its second loop, waiting for a thread. -/
  | stopJoin (i : Nat)
deriving DecidableEq, Repr

structure State where
  entries : List Entry
  /-- What the status board shows. -/
  clientCount : Int32
  holder : Holder
  /-- Number of sessions adopted so far. -/
  adopted : Nat
  /-- The sessions whose flag is set. -/
  finished : List Nat
  /-- The sessions whose thread has returned. -/
  returned : List Nat
deriving DecidableEq

inductive Event where
  /-- A listener hands over a session and the thread that runs it. -/
  | adopt
  /-- A listener gets the mutex for a pass. -/
  | reapFinished
  | stopAll
  /-- The thread that holds the mutex takes its next step. -/
  | advance
  /-- A session's loop has ended. -/
  | finish (session : Nat)
  /-- Its thread returns. -/
  | exit (session : Nat)
deriving DecidableEq, Repr

/-- What an operation does to a session or its thread. -/
inductive Action where
  /-- `finished()` and what it returned. -/
  | observe (session : Nat) (finished : Bool)
  | requestStop (session : Nat)
  /-- A call of `join`. -/
  | join (session : Nat)
  /-- Its return. -/
  | joined (session : Nat)
deriving DecidableEq, Repr

namespace State

def initial : State := ⟨[], 0, .free, 0, [], []⟩

def count (s : State) : Int32 := Int32.ofNat s.entries.length

def sessions (s : State) : List Nat := s.entries.map Entry.session

/-- The mutex is released. -/
def release (s : State) : State := { s with holder := .free }

/-- Behind the loop of `reapFinished`, or behind `push_back`. -/
def storeCount (s : State) : State := { s with clientCount := s.count }

def adopt (s : State) : State :=
  let entries := s.entries ++ [⟨s.adopted, true⟩]
  { s with entries, adopted := s.adopted + 1 }.storeCount

/-- `entries_.erase(it)`. -/
def erase (s : State) (it : Nat) : State :=
  { s with entries := s.entries.eraseIdx it, holder := .reaping it }

/-- `finished()` of the entry, and the call of `join` if it returned true. -/
def inspect (s : State) (it : Nat) (e : Entry) : State × List Action :=
  if e.session ∈ s.finished then
    if e.joinable then
      ({ s with holder := .reapJoin it }, [.observe e.session true, .join e.session])
    else (s.erase it, [.observe e.session true])
  else ({ s with holder := .reaping (it + 1) }, [.observe e.session false])

/-- A call of `join` has returned. -/
def joinReturned (s : State) (i : Nat) (e : Entry) : State :=
  { s with entries := s.entries.set i { e with joinable := false }, holder := .joining (i + 1) }

/-- The next step of the operation in the mutex. -/
def advance (s : State) : Option (State × List Action) :=
  match s.holder with
  | .free => none
  | .reaping it =>
    match s.entries[it]? with
    | some e => some (s.inspect it e)
    | none => some (s.storeCount.release, [])
  | .reapJoin it =>
    match s.entries[it]? with
    | some e => if e.session ∈ s.returned then some (s.erase it, [.joined e.session]) else none
    | none => none
  | .stopping i =>
    match s.entries[i]? with
    | some e => some ({ s with holder := .stopping (i + 1) }, [.requestStop e.session])
    | none => some ({ s with holder := .joining 0 }, [])
  | .joining i =>
    match s.entries[i]? with
    | some e =>
      if e.joinable then some ({ s with holder := .stopJoin i }, [.join e.session])
      else some ({ s with holder := .joining (i + 1) }, [])
    | none => some ({ s with entries := [], clientCount := 0 }.release, [])
  | .stopJoin i =>
    match s.entries[i]? with
    | some e =>
      if e.session ∈ s.returned then some (s.joinReturned i e, [.joined e.session]) else none
    | none => none

/-- The state behind an event and what was done in it. -/
def react (s : State) : Event → Option (State × List Action)
  | .adopt => if s.holder = .free then some (s.adopt, []) else none
  | .reapFinished =>
    if s.holder = .free then some ({ s with holder := .reaping 0 }, []) else none
  | .stopAll => if s.holder = .free then some ({ s with holder := .stopping 0 }, []) else none
  | .advance => s.advance
  | .finish session => some ({ s with finished := session :: s.finished }, [])
  -- `run` sets the flag on its way out
  | .exit session =>
    if session ∈ s.finished then some ({ s with returned := session :: s.returned }, []) else none

def step (s : State) (e : Event) : Option State := (s.react e).map Prod.fst

def actions (s : State) (e : Event) : List Action := ((s.react e).map Prod.snd).getD []

end State

/-! ## What one step does -/

/-- The steps one by one, with the condition under which each is taken. -/
inductive Moves (s : State) : State → List Action → Prop where
  | adopt (hfree : s.holder = .free) : Moves s s.adopt []
  | reapFinished (hfree : s.holder = .free) : Moves s { s with holder := .reaping 0 } []
  | stopAll (hfree : s.holder = .free) : Moves s { s with holder := .stopping 0 } []
  | finish (session : Nat) : Moves s { s with finished := session :: s.finished } []
  | exit (session : Nat) : Moves s { s with returned := session :: s.returned } []
  | running (it : Nat) (e : Entry) (hat : s.holder = .reaping it) (he : s.entries[it]? = some e)
      (hrun : e.session ∉ s.finished) :
      Moves s { s with holder := .reaping (it + 1) } [.observe e.session false]
  | ended (it : Nat) (e : Entry) (hat : s.holder = .reaping it) (he : s.entries[it]? = some e)
      (hended : e.session ∈ s.finished) (hjoin : e.joinable = true) :
      Moves s { s with holder := .reapJoin it } [.observe e.session true, .join e.session]
  | endedThreadless (it : Nat) (e : Entry) (hat : s.holder = .reaping it)
      (he : s.entries[it]? = some e) (hended : e.session ∈ s.finished)
      (hjoin : e.joinable = false) : Moves s (s.erase it) [.observe e.session true]
  | reaped (it : Nat) (e : Entry) (hat : s.holder = .reapJoin it) (he : s.entries[it]? = some e) :
      Moves s (s.erase it) [.joined e.session]
  | endReap (it : Nat) (hat : s.holder = .reaping it) (he : s.entries[it]? = none) :
      Moves s s.storeCount.release []
  | requestStop (i : Nat) (e : Entry) (hat : s.holder = .stopping i)
      (he : s.entries[i]? = some e) :
      Moves s { s with holder := .stopping (i + 1) } [.requestStop e.session]
  | endRequests (i : Nat) (hat : s.holder = .stopping i) (he : s.entries[i]? = none) :
      Moves s { s with holder := .joining 0 } []
  | join (i : Nat) (e : Entry) (hat : s.holder = .joining i) (he : s.entries[i]? = some e)
      (hjoin : e.joinable = true) : Moves s { s with holder := .stopJoin i } [.join e.session]
  | skip (i : Nat) (e : Entry) (hat : s.holder = .joining i) (he : s.entries[i]? = some e)
      (hjoin : e.joinable = false) : Moves s { s with holder := .joining (i + 1) } []
  | joined (i : Nat) (e : Entry) (hat : s.holder = .stopJoin i) (he : s.entries[i]? = some e) :
      Moves s (s.joinReturned i e) [.joined e.session]
  | endStop (i : Nat) (hat : s.holder = .joining i) (he : s.entries[i]? = none) :
      Moves s { s with entries := [], clientCount := 0, holder := .free } []

theorem moves_of_advance {s s' : State} {as : List Action} (h : s.advance = some (s', as)) :
    Moves s s' as := by
  unfold State.advance at h
  cases hat : s.holder with
  | free =>
    simp only [hat] at h
    cases h
  | reaping it =>
    simp only [hat] at h
    cases he : s.entries[it]? with
    | none =>
      simp only [he] at h
      cases h
      exact .endReap it hat he
    | some e =>
      simp only [he, State.inspect, Option.some.injEq] at h
      split at h
      · split at h
        · cases h
          exact .ended it e hat he ‹_› ‹_›
        · cases h
          exact .endedThreadless it e hat he ‹_› (by simpa using ‹¬ e.joinable = true›)
      · cases h
        exact .running it e hat he ‹_›
  | reapJoin it =>
    simp only [hat] at h
    cases he : s.entries[it]? with
    | none =>
      simp only [he] at h
      cases h
    | some e =>
      simp only [he] at h
      split at h
      · cases h
        exact .reaped it e hat he
      · cases h
  | stopping i =>
    simp only [hat] at h
    cases he : s.entries[i]? with
    | none =>
      simp only [he] at h
      cases h
      exact .endRequests i hat he
    | some e =>
      simp only [he] at h
      cases h
      exact .requestStop i e hat he
  | joining i =>
    simp only [hat] at h
    cases he : s.entries[i]? with
    | none =>
      simp only [he] at h
      cases h
      exact .endStop i hat he
    | some e =>
      simp only [he] at h
      split at h
      · cases h
        exact .join i e hat he ‹_›
      · cases h
        exact .skip i e hat he (by simpa using ‹¬ e.joinable = true›)
  | stopJoin i =>
    simp only [hat] at h
    cases he : s.entries[i]? with
    | none =>
      simp only [he] at h
      cases h
    | some e =>
      simp only [he] at h
      split at h
      · cases h
        exact .joined i e hat he
      · cases h

namespace State

theorem react_of_step {s s' : State} {e : Event} (h : s.step e = some s') :
    s.react e = some (s', s.actions e) := by
  obtain ⟨⟨t, as⟩, hreact, rfl⟩ := Option.map_eq_some_iff.mp h
  unfold actions
  rw [hreact]
  rfl

/-- A pass begins with a free mutex, at the first entry. -/
theorem reapFinished_of_step {s s' : State} (h : s.step .reapFinished = some s') :
    s.holder = .free ∧ { s with holder := .reaping 0 } = s' ∧ s.actions .reapFinished = [] := by
  obtain ⟨hfree, heq⟩ := Option.ite_none_right_eq_some.mp (react_of_step h)
  obtain ⟨hstate, hactions⟩ := Prod.ext_iff.mp (Option.some.inj heq)
  exact ⟨hfree, hstate, hactions.symm⟩

/-- `stopAll` begins with a free mutex, at the first entry. -/
theorem stopAll_of_step {s s' : State} (h : s.step .stopAll = some s') :
    s.holder = .free ∧ { s with holder := .stopping 0 } = s' ∧ s.actions .stopAll = [] := by
  obtain ⟨hfree, heq⟩ := Option.ite_none_right_eq_some.mp (react_of_step h)
  obtain ⟨hstate, hactions⟩ := Prod.ext_iff.mp (Option.some.inj heq)
  exact ⟨hfree, hstate, hactions.symm⟩

end State

theorem moves_of_react {s s' : State} {e : Event} {as : List Action}
    (h : s.react e = some (s', as)) : Moves s s' as := by
  cases e with
  | adopt =>
    obtain ⟨hfree, heq⟩ := Option.ite_none_right_eq_some.mp h
    cases heq
    exact .adopt hfree
  | reapFinished =>
    obtain ⟨hfree, heq⟩ := Option.ite_none_right_eq_some.mp h
    cases heq
    exact .reapFinished hfree
  | stopAll =>
    obtain ⟨hfree, heq⟩ := Option.ite_none_right_eq_some.mp h
    cases heq
    exact .stopAll hfree
  | advance => exact moves_of_advance h
  | finish session =>
    cases h
    exact .finish session
  | exit session =>
    obtain ⟨hover, heq⟩ := Option.ite_none_right_eq_some.mp h
    cases heq
    exact .exit session

/-- A step does what its actions say. -/
theorem moves_of_step {s s' : State} {e : Event} (h : s.step e = some s') :
    Moves s s' (s.actions e) :=
  moves_of_react (State.react_of_step h)

end FaceTracking.Registry
