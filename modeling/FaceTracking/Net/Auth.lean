import FaceTracking.Net.MiniJson

/-!
# The shared-token check

`constantTimeEqual` scans the whole expected token whatever it is compared
with, wrapping around the supplied one; `helloAuthorized` applies it to the
`token` member of a HELLO body.
-/

namespace FaceTracking.Auth

open Lib

/-- The byte the supplied value contributes at a position: its length wraps
around, and an empty value contributes zero. -/
def gotAt (got : Bytes) (i : Nat) : UInt8 :=
  if got = [] then 0 else got.getD (i % got.length) 0

/-- Compare without returning early on the first difference. -/
def constantTimeEqual (expected got : Bytes) : Bool :=
  let n := expected.length
  let diff : UInt8 := if n = got.length then 0 else 1
  let diff := (List.range n).foldl (fun d i => d ||| (expected.getD i 0 ^^^ gotAt got i)) diff
  diff == 0

/-- Does a HELLO body carry the expected token? A missing token is compared as
the empty string. -/
def helloAuthorized (expected helloBody : Bytes) : Bool :=
  let token := (Mjson.getString helloBody (utf8 "token")).getD []
  constantTimeEqual expected token

/-! ## What the comparison decides -/

/-- An or-accumulator ends at zero when it starts there and every term is zero. -/
theorem foldl_or_eq_zero (f : Nat → UInt8) (l : List Nat) (d : UInt8) :
    l.foldl (fun d i => d ||| f i) d = 0 ↔ d = 0 ∧ ∀ i ∈ l, f i = 0 := by
  induction l generalizing d with
  | nil => simp
  | cons i l ih =>
    rw [List.foldl_cons, ih, UInt8.or_eq_zero_iff]
    simp [and_assoc]

/-- Comparing byte strings of any lengths is equality. -/
theorem constantTimeEqual_iff (expected got : Bytes) :
    constantTimeEqual expected got = true ↔ expected = got := by
  have hiff : constantTimeEqual expected got = true ↔
      expected.length = got.length ∧
        ∀ i < expected.length, expected.getD i 0 = gotAt got i := by
    rw [constantTimeEqual, beq_iff_eq, foldl_or_eq_zero]
    by_cases hl : expected.length = got.length
    · simp [hl]
    · simp [hl]
  rw [hiff]
  constructor
  · rintro ⟨hl, hall⟩
    apply List.ext_getElem hl
    intro i hi hi'
    have h := hall i hi
    have hne : got ≠ [] := by
      rintro rfl
      simp at hi'
    -- with equal lengths the index never wraps
    rw [gotAt, if_neg hne, Nat.mod_eq_of_lt hi'] at h
    simpa [List.getD_eq_getElem?_getD, hi, hi'] using h
  · rintro rfl
    refine ⟨rfl, ?_⟩
    intro i hi
    have hne : expected ≠ [] := by
      rintro rfl
      simp at hi
    rw [gotAt, if_neg hne, Nat.mod_eq_of_lt hi]

theorem helloAuthorized_iff (expected body : Bytes) :
    helloAuthorized expected body = true ↔
      expected = (Mjson.getString body (utf8 "token")).getD [] :=
  constantTimeEqual_iff _ _

end FaceTracking.Auth
