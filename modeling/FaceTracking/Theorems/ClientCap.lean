import FaceTracking.Net.TcpServer

/-!
# The client cap

A listener compares the number of clients with the cap in one step and hands
its session to the registry in a later one. With one listener nothing is added
in between. With several, each may pass the count before any other has handed
over its session, and the registry outgrows the cap (`two_listeners_exceed`).

What bounds the registry is the number of entries plus the number of
connections in flight. It stays within the cap as long as every count that
passes finds that sum below it (`client_cap`), and no weaker condition would
do: once the sum exceeds the cap, handing over what is in flight exceeds it
too (`exceeds_of_load`).
-/

namespace FaceTracking.Terminal

open Lib

variable {maxClients : Int32}

/-- Entries, and connections that are to become entries. -/
def load (s : Terminal) : Nat := s.registry.entries.length + s.inFlight

/-- A count that lets a connection pass finds room for it, connections in
flight included. -/
def Meets (maxClients : Int32) (s : Terminal) : Event → Prop
  | .count _ => s.registry.count < cap maxClients → s.load < (cap maxClients).toInt
  | _ => True

instance (maxClients : Int32) (s : Terminal) (e : Event) : Decidable (Meets maxClients s e) :=
  match e with
  | .count _ =>
    inferInstanceAs (Decidable (s.registry.count < cap maxClients →
      s.load < (cap maxClients).toInt))
  | .poll _ _ | .accept _ _ | .spawn _ | .adopt _ | .reap _ | .finish _ => .isTrue trivial

theorem cap_eq (h : 1 ≤ maxClients.toInt) : cap maxClients = maxClients :=
  if_pos (Int32.lt_iff_toInt_lt.mpr (by
    have h0 : (0 : Int32).toInt = 0 := rfl
    omega))

/-! ## The load stays within the cap -/

theorem initial_load (n : Nat) : (initial n).load = 0 := by
  simp [initial, load, inFlight, ClientRegistry.empty, AcceptPhase.inFlight]

/-- A step under the condition keeps the load within the cap. -/
theorem step_load {s s' : Terminal} {e : Event} (h : (s.load : Int) ≤ (cap maxClients).toInt)
    (he : Meets maxClients s e) (hstep : step maxClients s e = some s') :
    (s'.load : Int) ≤ (cap maxClients).toInt := by
  unfold load at h ⊢
  rcases step_cases hstep with ⟨hentries, hflight⟩ | ⟨⟨i, rfl⟩, hpass, hentries, hflight⟩ |
    ⟨hentries, hflight⟩
  · omega
  · have hroom : (s.load : Int) < (cap maxClients).toInt := he hpass
    unfold load at hroom
    omega
  · omega

/-! ## Handing over what is in flight -/

/-- One connection in flight becomes an entry. -/
theorem exists_handover (maxClients : Int32) {s : Terminal} (h : 0 < s.inFlight) :
    ∃ es s', play (step maxClients) s es = some s' ∧
      s'.registry.entries.length = s.registry.entries.length + 1 ∧ s'.inFlight + 1 = s.inFlight := by
  obtain ⟨phase, hmem, hphase⟩ := List.countP_pos_iff.mp h
  obtain ⟨i, hi⟩ := List.mem_iff_getElem?.mp hmem
  have hlt : i < s.servers.length := (List.getElem?_eq_some_iff.mp hi).1
  cases phase with
  | spawning =>
    let t : Terminal := { s with spawned := s.spawned + 1 }.setPhase i (.adopting s.spawned)
    let u : Terminal := { t with registry := t.registry.adopt s.spawned }.setPhase i .reaping
    have ht : t.servers[i]? = some (.adopting s.spawned) := List.getElem?_set_self hlt
    have hspawn : t.inFlight = s.inFlight :=
      Nat.add_right_cancel (countP_set_add hi (.adopting s.spawned))
    have hadopt : u.inFlight + 1 = t.inFlight := countP_set_add ht .reaping
    refine ⟨[.spawn i, .adopt i], u, ?_, List.length_append, hadopt.trans hspawn⟩
    have hfirst : step maxClients s (.spawn i) = some t := by simp only [step, hi, t]
    have hsecond : step maxClients t (.adopt i) = some u := by simp only [step, ht, u]
    simp only [play, hfirst, hsecond, Option.bind_some]
  | adopting session =>
    let u : Terminal := { s with registry := s.registry.adopt session }.setPhase i .reaping
    have hadopt : u.inFlight + 1 = s.inFlight := countP_set_add hi .reaping
    refine ⟨[.adopt i], u, ?_, List.length_append, hadopt⟩
    simp only [play, step, hi, Option.bind_some, u]
  | polling | accepting | counting | reaping => cases hphase

/-- A load above the cap lets the registry outgrow the cap. -/
theorem exceeds_of_load {s : Terminal} {limit : Nat} (h : limit < s.load) :
    ∃ es s', play (step maxClients) s es = some s' ∧ limit < s'.registry.entries.length := by
  unfold load at h
  generalize hn : s.inFlight = n at h
  induction n generalizing s with
  | zero => exact ⟨[], s, rfl, by omega⟩
  | succ n ih =>
    have hpos : 0 < s.inFlight := by omega
    obtain ⟨es, t, hplay, hentries, hflight⟩ := exists_handover maxClients hpos
    obtain ⟨es', s', hplay', hlt⟩ := ih (s := t) (by omega) (by omega)
    exact ⟨es ++ es', s', play_append _ hplay hplay', hlt⟩

/-! ## Main result -/

/-- **The cap.** In every interleaving of the listeners and sessions in which
each count that passes finds room for all connections in flight, the registry
never has more than `maxClients` entries. -/
theorem client_cap (n : Nat) (hmax : 1 ≤ maxClients.toInt) (es : List Event)
    (hmeets : Throughout (step maxClients) (Meets maxClients) (initial n) es) (s : Terminal)
    (hplay : play (step maxClients) (initial n) es = some s) :
    (s.registry.entries.length : Int) ≤ maxClients.toInt := by
  have hload : (s.load : Int) ≤ (cap maxClients).toInt := by
    refine invariant _ (fun _ _ _ h he hstep => step_load h he hstep) ?_ hmeets hplay
    rw [initial_load, cap_eq hmax]
    omega
  rw [cap_eq hmax] at hload
  unfold load at hload
  omega

/-- One listener after the other. -/
def oneByOne : List Event :=
  [.poll 0 true, .accept 0 true, .count 0, .spawn 0, .adopt 0, .reap 0,
    .poll 1 true, .accept 1 true, .count 1, .reap 1]

theorem client_cap_one_by_one :
    ∃ s, play (step 1) (initial 2) oneByOne = some s ∧ (s.registry.entries.length : Int) ≤ 1 := by
  have hsome : (play (step 1) (initial 2) oneByOne).isSome = true := by decide +kernel
  obtain ⟨s, hplay⟩ := Option.isSome_iff_exists.mp hsome
  exact ⟨s, hplay, client_cap 2 (by decide) oneByOne (by decide +kernel) s hplay⟩

/-- Both listeners count before either hands its session over. -/
def bothCount : List Event :=
  [.poll 0 true, .accept 0 true, .poll 1 true, .accept 1 true, .count 0, .count 1,
    .spawn 0, .spawn 1, .adopt 0, .adopt 1]

theorem two_listeners_exceed :
    ¬ ∀ s, play (step 1) (initial 2) bothCount = some s → (s.registry.entries.length : Int) ≤ 1 := by
  intro hall
  have hentries : (play (step 1) (initial 2) bothCount).map (fun s => s.registry.entries.length) =
      some 2 := by decide +kernel
  obtain ⟨s, hplay, hs⟩ := Option.map_eq_some_iff.mp hentries
  have := hall s hplay
  omega

end FaceTracking.Terminal
