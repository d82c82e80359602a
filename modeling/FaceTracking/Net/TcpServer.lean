import FaceTracking.Lib.Runs
import Mathlib.Data.List.Count

/-!
# Listeners and the client registry

Each listener has a thread of its own: it polls its socket, accepts a
connection, asks the registry for the number of clients, creates a session and
hands it to the registry. All listeners share one registry. Its operations
hold its mutex, so each is one step; between two of them any other thread may
run. `Terminal` is the machine of all listeners and sessions, and a list of
events is an interleaving.

A session is known by its number. It starts to run before it is handed over
and may finish at any time after that.
-/

namespace FaceTracking

open Lib

/-! ## The registry -/

/-- Owns the sessions; `clientCount` is what the status board shows. -/
structure ClientRegistry where
  entries : List Nat
  clientCount : Int32

namespace ClientRegistry

def empty : ClientRegistry := ⟨[], 0⟩

def size (entries : List Nat) : Int32 := Int32.ofNat entries.length

def count (r : ClientRegistry) : Int32 := size r.entries

def adopt (r : ClientRegistry) (session : Nat) : ClientRegistry :=
  ⟨r.entries ++ [session], size (r.entries ++ [session])⟩

/-- Join and remove the sessions whose loop has returned. -/
def reapFinished (r : ClientRegistry) (finished : List Nat) : ClientRegistry :=
  let entries := r.entries.filter (fun session => session ∉ finished)
  ⟨entries, size entries⟩

end ClientRegistry

/-! ## Listeners -/

/-- Where a listener is in its accept loop. -/
inductive AcceptPhase where
  | polling
  | accepting
  /-- A connection is accepted and not yet counted. -/
  | counting
  /-- The cap was not reached. -/
  | spawning
  | adopting (session : Nat)
  | reaping
deriving DecidableEq, Repr

/-- Past the count and not yet in the registry. -/
def AcceptPhase.inFlight : AcceptPhase → Bool
  | .spawning | .adopting _ => true
  | _ => false

structure Terminal where
  servers : List AcceptPhase
  registry : ClientRegistry
  /-- Number of sessions created so far. -/
  spawned : Nat
  finished : List Nat

namespace Terminal

/-- `n` listeners before their first connection. -/
def initial (n : Nat) : Terminal := ⟨.replicate n .polling, .empty, 0, []⟩

inductive Event where
  /-- `poll` returns; the wake-up without a connection only reaps. -/
  | poll (i : Nat) (readable : Bool)
  | accept (i : Nat) (ok : Bool)
  | count (i : Nat)
  | spawn (i : Nat)
  | adopt (i : Nat)
  | reap (i : Nat)
  /-- A session's loop returns. -/
  | finish (session : Nat)
deriving DecidableEq, Repr

/-- `maxClients_`. -/
def cap (maxClients : Int32) : Int32 := if maxClients > 0 then maxClients else 1

def setPhase (s : Terminal) (i : Nat) (phase : AcceptPhase) : Terminal :=
  { s with servers := s.servers.set i phase }

def step (maxClients : Int32) (s : Terminal) : Event → Option Terminal
  | .poll i readable =>
    match s.servers[i]? with
    | some .polling => some (s.setPhase i (if readable then .accepting else .reaping))
    | _ => none
  | .accept i ok =>
    match s.servers[i]? with
    | some .accepting => some (s.setPhase i (if ok then .counting else .reaping))
    | _ => none
  | .count i =>
    match s.servers[i]? with
    | some .counting =>
      some (s.setPhase i (if s.registry.count ≥ cap maxClients then .reaping else .spawning))
    | _ => none
  | .spawn i =>
    match s.servers[i]? with
    | some .spawning =>
      some ({ s with spawned := s.spawned + 1 }.setPhase i (.adopting s.spawned))
    | _ => none
  | .adopt i =>
    match s.servers[i]? with
    | some (.adopting session) =>
      some ({ s with registry := s.registry.adopt session }.setPhase i .reaping)
    | _ => none
  | .reap i =>
    match s.servers[i]? with
    | some .reaping =>
      some ({ s with registry := s.registry.reapFinished s.finished }.setPhase i .polling)
    | _ => none
  | .finish session =>
    if session < s.spawned then some { s with finished := session :: s.finished } else none

/-! ## What one step does -/

/-- Number of connections past the count and not yet in the registry. -/
def inFlight (s : Terminal) : Nat := s.servers.countP AcceptPhase.inFlight

/-- Moving one listener changes the number by what it leaves and enters. -/
theorem countP_set_add {servers : List AcceptPhase} {i : Nat} {old : AcceptPhase}
    (h : servers[i]? = some old) (phase : AcceptPhase) :
    (servers.set i phase).countP AcceptPhase.inFlight + old.inFlight.toNat =
      servers.countP AcceptPhase.inFlight + phase.inFlight.toNat := by
  obtain ⟨hi, hold⟩ := List.getElem?_eq_some_iff.mp h
  have hpos : old.inFlight = true → 0 < servers.countP AcceptPhase.inFlight := by
    intro ho
    exact List.countP_pos_iff.mpr ⟨old, hold ▸ List.getElem_mem hi, ho⟩
  rw [List.countP_set hi, hold]
  cases ho : old.inFlight with
  | false => cases phase.inFlight <;> simp
  | true =>
    have := hpos ho
    cases phase.inFlight <;> simp <;> omega

/-- Only passing the count adds a connection in flight, and only handing one
over adds an entry. -/
theorem step_cases {maxClients : Int32} {s s' : Terminal} {e : Event}
    (h : step maxClients s e = some s') :
    (s'.registry.entries.length ≤ s.registry.entries.length ∧ s'.inFlight = s.inFlight) ∨
    ((∃ i, e = .count i) ∧ s.registry.count < cap maxClients ∧
      s'.registry.entries.length = s.registry.entries.length ∧ s'.inFlight = s.inFlight + 1) ∨
    (s'.registry.entries.length = s.registry.entries.length + 1 ∧
      s'.inFlight + 1 = s.inFlight) := by
  cases e with
  | poll i readable =>
    unfold step at h
    simp only at h
    split at h
    · rename_i hi
      cases h
      have hset := countP_set_add hi (if readable then .accepting else .reaping)
      refine .inl ⟨Nat.le_refl _, ?_⟩
      cases readable <;> exact hset
    · cases h
  | accept i ok =>
    unfold step at h
    simp only at h
    split at h
    · rename_i hi
      cases h
      have hset := countP_set_add hi (if ok then .counting else .reaping)
      refine .inl ⟨Nat.le_refl _, ?_⟩
      cases ok <;> exact hset
    · cases h
  | count i =>
    unfold step at h
    simp only at h
    split at h
    · rename_i hi
      cases h
      by_cases hc : s.registry.count ≥ cap maxClients
      · rw [if_pos hc]
        exact .inl ⟨Nat.le_refl _, countP_set_add hi .reaping⟩
      · rw [if_neg hc]
        exact .inr (.inl ⟨⟨i, rfl⟩, Int32.not_le.mp hc, rfl, countP_set_add hi .spawning⟩)
    · cases h
  | spawn i =>
    unfold step at h
    simp only at h
    split at h
    · rename_i hi
      cases h
      refine .inl ⟨Nat.le_refl _, ?_⟩
      exact Nat.add_right_cancel (countP_set_add hi (.adopting s.spawned))
    · cases h
  | adopt i =>
    unfold step at h
    simp only at h
    split at h
    · rename_i session hi
      cases h
      exact .inr (.inr ⟨List.length_append, countP_set_add hi .reaping⟩)
    · cases h
  | reap i =>
    unfold step at h
    simp only at h
    split at h
    · rename_i hi
      cases h
      exact .inl ⟨List.length_filter_le _ _, countP_set_add hi .polling⟩
    · cases h
  | finish session =>
    unfold step at h
    simp only at h
    split at h
    · cases h
      exact .inl ⟨Nat.le_refl _, rfl⟩
    · cases h

end Terminal

end FaceTracking
