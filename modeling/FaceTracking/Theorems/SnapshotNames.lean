import FaceTracking.File.Snapshot

/-!
# Snapshot names

Captures have different names just if no two of them were timed in the same
local second with readings of the steady clock that agree modulo a second
(`snapshot_names`). Nothing keeps two calls from that: they can read both
clocks in the same millisecond (`snapshots_collide`).
-/

namespace FaceTracking.Snapshots

open Lib

variable {ι : Type} {localtime : Int → Tm} {s s' : Snapshots ι}

/-- Timed in the same local second, with the same milliseconds. -/
def Clash (localtime : Int → Tm) (a b : Saved ι) : Prop :=
  localtime a.t = localtime b.t ∧ nowMs a.now % 1000 = nowMs b.now % 1000

instance (a b : Saved ι) : Decidable (Clash localtime a b) :=
  inferInstanceAs (Decidable (_ ∧ _))

/-- What every state of a run satisfies. -/
structure Sound (localtime : Int → Tm) (s : Snapshots ι) : Prop where
  name : ∀ a ∈ s.saved, a.name = Snapshot.snapshotName (localtime a.t) (nowMs a.now)
  returned : ∀ a ∈ s.saved, s.progress a.call = .returned
  once : (s.saved.map Saved.call).Nodup

theorem initial_sound : Sound localtime (initial : Snapshots ι) :=
  ⟨nofun, nofun, .nil⟩

/-- A call that returns now has not returned before. -/
theorem Sound.fresh (h : Sound localtime s) {i : ι} (hi : s.progress i ≠ .returned) :
    i ∉ s.saved.map Saved.call := by
  intro hmem
  obtain ⟨a, ha, rfl⟩ := List.mem_map.mp hmem
  exact hi (h.returned a ha)

variable [DecidableEq ι]

/-- A call that has not returned is not among the saved ones, so its progress is free. -/
theorem Sound.update (h : Sound localtime s) {i : ι} (hi : s.progress i ≠ .returned)
    (p : SnapshotProgress) : ∀ a ∈ s.saved, Function.update s.progress i p a.call = .returned := by
  intro a ha
  have hne : a.call ≠ i := by
    rintro rfl
    exact hi (h.returned a ha)
  rw [Function.update_of_ne hne]
  exact h.returned a ha

/-- Every step keeps the saved names sound. -/
theorem step_sound {e : Event ι} (h : Sound localtime s) (hstep : step localtime s e = some s') :
    Sound localtime s' := by
  cases e with
  | readWall i t =>
    obtain ⟨hi, rfl⟩ := step_readWall hstep
    exact ⟨h.name, h.update (hi ▸ nofun) _, h.once⟩
  | readSteady i now =>
    obtain ⟨t, hi, rfl⟩ := step_readSteady hstep
    exact ⟨h.name, h.update (hi ▸ nofun) _, h.once⟩
  | write i ok =>
    obtain ⟨t, now, hi, rfl⟩ := step_write hstep
    have hopen : s.progress i ≠ .returned := hi ▸ nofun
    have hold := h.update hopen .returned
    cases ok with
    | false =>
      simp only [Bool.false_eq_true, ↓reduceIte, List.append_nil]
      exact ⟨h.name, hold, h.once⟩
    | true =>
      simp only [↓reduceIte]
      refine ⟨?_, ?_, ?_⟩
      · intro a ha
        rcases List.mem_append.mp ha with ha | ha
        · exact h.name a ha
        · rw [List.mem_singleton.mp ha]
      · intro a ha
        rcases List.mem_append.mp ha with ha | ha
        · exact hold a ha
        · rw [List.mem_singleton.mp ha]
          exact Function.update_self ..
      · rw [List.map_append, List.map_singleton, List.nodup_append_comm]
        exact List.nodup_cons.mpr ⟨h.fresh hopen, h.once⟩

/-- **Names.** In every interleaving every call succeeds at most once, and the
names returned are all different just if no two of the calls clash. -/
theorem snapshot_names {es : List (Event ι)}
    (hplay : play (step localtime) initial es = some s) :
    (s.saved.map Saved.call).Nodup ∧
      ((s.saved.map Saved.name).Nodup ↔ s.saved.Pairwise fun a b => ¬ Clash localtime a b) := by
  have hs : Sound localtime s :=
    invariant _ (P := fun _ _ => True) (fun _ _ _ h _ => step_sound h) initial_sound
      (Throughout.of_forall _ (fun _ _ => trivial) _ _) hplay
  refine ⟨hs.once, ?_⟩
  rw [List.Nodup, List.pairwise_map]
  have hsame : ∀ {a b : Saved ι}, a ∈ s.saved → b ∈ s.saved →
      (a.name = b.name ↔ Clash localtime a b) := by
    intro a b ha hb
    rw [hs.name a ha, hs.name b hb]
    exact Snapshot.snapshotName_inj _ _ _ _
  exact List.Pairwise.iff_of_mem fun ha hb => not_congr (hsame ha hb)

/-! ## Two calls -/

/-- A moment of the steady clock. -/
def ms (n : Nat) (h : n < 2 ^ 43) : SteadyTime := ⟨n * 1000000, by omega⟩

/-- A manual request and an automatic snapshot that read their clocks one after the other. -/
def twoCalls (n m : Nat) (hn : n < 2 ^ 43) (hm : m < 2 ^ 43) : List (Event (Fin 2)) :=
  [.readWall 0 1704067200, .readWall 1 1704067200, .readSteady 0 (ms n hn),
    .readSteady 1 (ms m hm), .write 0 true, .write 1 true]

/-- The local time of the new year of 2024. -/
def newYear : Int → Tm := fun _ => ⟨2024, 0, 1, 0, 0, 0⟩

/-- Two calls one millisecond apart return two names. -/
theorem snapshot_names_apart :
    ∃ s, play (step newYear) initial (twoCalls 5123 5124 (by omega) (by omega)) = some s ∧
      (s.saved.map Saved.name).Nodup := by
  have hapart : (play (step newYear) initial (twoCalls 5123 5124 (by omega) (by omega))).map
      (fun s => decide (s.saved.Pairwise fun a b => ¬ Clash newYear a b)) = some true := by
    decide +kernel
  obtain ⟨s, hplay, hs⟩ := Option.map_eq_some_iff.mp hapart
  exact ⟨s, hplay, (snapshot_names hplay).2.mpr (of_decide_eq_true hs)⟩

/-- **A collision.** Two calls that read both clocks in one millisecond return
the same name. -/
theorem snapshots_collide :
    ¬ ∀ (es : List (Event (Fin 2))) (s : Snapshots (Fin 2)),
      play (step newYear) initial es = some s → (s.saved.map Saved.name).Nodup := by
  intro hall
  have hnames : (play (step newYear) initial (twoCalls 5123 5123 (by omega) (by omega))).map
      (fun s => decide (s.saved.map Saved.name).Nodup) = some false := by decide +kernel
  obtain ⟨s, hplay, hs⟩ := Option.map_eq_some_iff.mp hnames
  exact absurd (hall _ s hplay) (by simpa using hs)

end FaceTracking.Snapshots
