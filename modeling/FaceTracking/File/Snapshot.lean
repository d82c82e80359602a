import FaceTracking.Core.Time
import FaceTracking.Lib.Runs
import FaceTracking.Lib.Utf8

/-!
# Snapshots

`FileManager::snapshot` names a capture by the local time to the second and by
the milliseconds of the monotonic clock. The two clocks are read one after the
other and outside the lock, so any number of calls interleave: `Snapshots` is
the machine of their steps. A name shows all of the local time it was made
from, and nothing but the last three digits of the other reading
(`snapshotName_inj`).
-/

namespace FaceTracking

open Lib

/-! ## Names -/

/-- A broken-down time, as far as a name shows it. -/
structure Tm where
  year : Int
  mon : Fin 12
  mday : Fin 32
  hour : Fin 24
  min : Fin 60
  sec : Fin 61
deriving DecidableEq

namespace Snapshot

def digit (n : Nat) : UInt8 := UInt8.ofNat (0x30 + n)

/-- `%02u` -/
def pad2 (n : Nat) : Bytes := [digit (n / 10), digit (n % 10)]

/-- `%03u` -/
def pad3 (n : Nat) : Bytes := [digit (n / 100), digit (n / 10 % 10), digit (n % 10)]

/-- `strftime` with `snap_%Y%m%d_%H%M%S`. -/
def strftime (tm : Tm) : Bytes :=
  utf8 "snap_" ++ (utf8 (toString tm.year) ++ (pad2 (tm.mon + 1) ++ pad2 tm.mday ++ utf8 "_" ++
    pad2 tm.hour ++ pad2 tm.min ++ pad2 tm.sec))

/-- The name of a capture; `now` is what `nowMs()` said. -/
def snapshotName (tm : Tm) (now : UInt64) : Bytes :=
  strftime tm ++ (utf8 "_" ++ pad3 (now % 1000).toNat ++ utf8 ".jpg")

theorem digit_inj {m n : Nat} (hm : m < 10) (hn : n < 10) (h : digit m = digit n) : m = n := by
  have hnat := congrArg UInt8.toNat h
  rw [digit, digit, UInt8.toNat_ofNat', UInt8.toNat_ofNat'] at hnat
  omega

theorem pad2_inj {m n : Nat} (hm : m < 100) (hn : n < 100) (h : pad2 m = pad2 n) : m = n := by
  simp only [pad2, List.cons.injEq, and_true] at h
  have htens := digit_inj (by omega) (by omega) h.1
  have hones := digit_inj (by omega) (by omega) h.2
  omega

theorem pad3_inj {m n : Nat} (hm : m < 1000) (hn : n < 1000) (h : pad3 m = pad3 n) : m = n := by
  simp only [pad3, List.cons.injEq, and_true] at h
  have hhundreds := digit_inj (by omega) (by omega) h.1
  have htens := digit_inj (by omega) (by omega) h.2.1
  have hones := digit_inj (by omega) (by omega) h.2.2
  omega

theorem year_inj {x y : Int} (h : utf8 (toString x) = utf8 (toString y)) : x = y := by
  have htext := congrArg decodeUtf8? h
  rw [decodeUtf8?_utf8, decodeUtf8?_utf8, Option.some.injEq] at htext
  exact Int.repr_injective htext

/-- Everything behind the year has a fixed length, so the year can be told from it. -/
theorem strftime_inj {tm tm' : Tm} (h : strftime tm = strftime tm') : tm = tm' := by
  obtain ⟨year, mon, mday, hour, min, sec⟩ := tm
  obtain ⟨year', mon', mday', hour', min', sec'⟩ := tm'
  obtain ⟨hyear, hrest⟩ := List.append_inj' (List.append_cancel_left h) rfl
  obtain ⟨hrest, hsec⟩ := List.append_inj' hrest rfl
  obtain ⟨hrest, hmin⟩ := List.append_inj' hrest rfl
  obtain ⟨hrest, hhour⟩ := List.append_inj' hrest rfl
  obtain ⟨hrest, -⟩ := List.append_inj' hrest rfl
  obtain ⟨hmon, hmday⟩ := List.append_inj' hrest rfl
  simp only [Tm.mk.injEq]
  refine ⟨year_inj hyear, Fin.ext ?_, Fin.ext (pad2_inj (by omega) (by omega) hmday),
    Fin.ext (pad2_inj (by omega) (by omega) hhour), Fin.ext (pad2_inj (by omega) (by omega) hmin),
    Fin.ext (pad2_inj (by omega) (by omega) hsec)⟩
  exact Nat.succ.inj (pad2_inj (by omega) (by omega) hmon)

/-- A name determines the local second and the millisecond within one. -/
theorem snapshotName_inj (tm tm' : Tm) (now now' : UInt64) :
    snapshotName tm now = snapshotName tm' now' ↔ tm = tm' ∧ now % 1000 = now' % 1000 := by
  constructor
  · intro h
    obtain ⟨htm, hrest⟩ := List.append_inj' h rfl
    obtain ⟨hms, -⟩ := List.append_inj' hrest rfl
    have hlt : ∀ x : UInt64, (x % 1000).toNat < 1000 := fun x => by
      rw [UInt64.toNat_mod]
      exact Nat.mod_lt _ (by decide)
    exact ⟨strftime_inj htm,
      UInt64.toNat_inj.mp (pad3_inj (hlt _) (hlt _) (List.append_cancel_left hms))⟩
  · rintro ⟨rfl, hms⟩
    rw [snapshotName, snapshotName, hms]

end Snapshot

/-! ## Interleaved calls -/

/-- How far a call has come. -/
inductive SnapshotProgress where
  | called
  /-- `time` and `localtime_r` are done. -/
  | timed (t : Int)
  /-- The name is complete; the lock is not yet taken. -/
  | named (t : Int) (now : SteadyTime)
  | returned

/-- A call that succeeded, with its readings and the name it returned. -/
structure Saved (ι : Type) where
  call : ι
  t : Int
  now : SteadyTime
  name : Bytes

/-- Any number of calls of `snapshot` with an image. `clock` is the last reading
of the steady clock; `saved` is what was returned, in order. -/
structure Snapshots (ι : Type) where
  progress : ι → SnapshotProgress
  clock : Nat
  saved : List (Saved ι)

namespace Snapshots

inductive Event (ι : Type) where
  | readWall (i : ι) (t : Int)
  | readSteady (i : ι) (now : SteadyTime)
  /-- Under the lock: `imwrite`, and whether it succeeds. -/
  | write (i : ι) (ok : Bool)

variable {ι : Type} [DecidableEq ι] (localtime : Int → Tm)

def initial : Snapshots ι := ⟨fun _ => .called, 0, []⟩

/-- The steady clock never goes back. -/
def step (s : Snapshots ι) : Event ι → Option (Snapshots ι)
  | .readWall i t =>
    match s.progress i with
    | .called => some { s with progress := Function.update s.progress i (.timed t) }
    | _ => none
  | .readSteady i now =>
    match s.progress i with
    | .timed t =>
      if s.clock ≤ now.ns then
        some { s with progress := Function.update s.progress i (.named t now), clock := now.ns }
      else none
    | _ => none
  | .write i ok =>
    match s.progress i with
    | .named t now =>
      some { s with
        progress := Function.update s.progress i .returned
        saved := s.saved ++ if ok then
          [⟨i, t, now, Snapshot.snapshotName (localtime t) (nowMs now)⟩] else [] }
    | _ => none

/-! ## What a step does -/

variable {localtime} {s s' : Snapshots ι} {i : ι}

theorem step_readWall {t : Int} (h : step localtime s (.readWall i t) = some s') :
    s.progress i = .called ∧
      s' = { s with progress := Function.update s.progress i (.timed t) } := by
  simp only [step] at h
  split at h
  · rename_i hi
    exact ⟨hi, (Option.some.inj h).symm⟩
  · cases h

theorem step_readSteady {now : SteadyTime} (h : step localtime s (.readSteady i now) = some s') :
    ∃ t, s.progress i = .timed t ∧
      s' = { s with progress := Function.update s.progress i (.named t now), clock := now.ns } := by
  simp only [step] at h
  split at h
  · rename_i t hi
    split at h
    · exact ⟨t, hi, (Option.some.inj h).symm⟩
    · cases h
  · cases h

theorem step_write {ok : Bool} (h : step localtime s (.write i ok) = some s') :
    ∃ t now, s.progress i = .named t now ∧
      s' = { s with
        progress := Function.update s.progress i .returned
        saved := s.saved ++ if ok then
          [⟨i, t, now, Snapshot.snapshotName (localtime t) (nowMs now)⟩] else [] } := by
  simp only [step] at h
  split at h
  · rename_i t now hi
    exact ⟨t, now, hi, (Option.some.inj h).symm⟩
  · cases h

end Snapshots

end FaceTracking
