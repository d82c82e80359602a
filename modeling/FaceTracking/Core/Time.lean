import Mathlib.Data.UInt

/-!
# The monotonic clock

`steady_clock` counts nanoseconds since boot in a signed number of 64 bits, so
a reading in milliseconds is far below 2^64 and adding an `int` to one never
wraps around.
-/

namespace FaceTracking

/-- A moment on the steady clock. -/
structure SteadyTime where
  ns : ℕ
  lt : ns < 2 ^ 63

/-- Monotonic milliseconds. -/
def nowMs (t : SteadyTime) : UInt64 := UInt64.ofNat (t.ns / 1000000)

/-- What `nowMs` can return. -/
def IsReading (now : UInt64) : Prop := ∃ t, nowMs t = now

theorem nowMs_toNat (t : SteadyTime) : (nowMs t).toNat = t.ns / 1000000 := by
  have := t.lt
  rw [nowMs, UInt64.toNat_ofNat']
  omega

theorem IsReading.lt {now : UInt64} (h : IsReading now) : now.toNat < 2 ^ 44 := by
  obtain ⟨t, rfl⟩ := h
  have := t.lt
  rw [nowMs_toNat]
  omega

theorem isReading_iff (now : UInt64) : IsReading now ↔ now.toNat ≤ (2 ^ 63 - 1) / 1000000 := by
  constructor
  · rintro ⟨t, rfl⟩
    have := t.lt
    rw [nowMs_toNat]
    omega
  · intro h
    refine ⟨⟨now.toNat * 1000000, by omega⟩, UInt64.toNat_inj.mp ?_⟩
    rw [nowMs_toNat, Nat.mul_div_cancel _ (by omega)]

instance (now : UInt64) : Decidable (IsReading now) := decidable_of_iff _ (isReading_iff now).symm

end FaceTracking
