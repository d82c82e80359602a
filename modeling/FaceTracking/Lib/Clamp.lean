import Mathlib.Algebra.Order.Group.Abs
import Mathlib.Order.Interval.Set.Defs
import Mathlib.Order.Monotone.Basic

/-!
# Clamping

A value held between two bounds of a linear order. In an ordered group, a value
within the bounds that is moved by `d` and clamped ends between where it was
and where it would have gone (`clampTo_add_nonneg`, `clampTo_add_nonpos`), so
one move repeated gives a monotone sequence (`monotone_of_moves`,
`antitone_of_moves`).
-/

namespace Lib

section Order

variable {α : Type*} [LinearOrder α]

/-- `v`, or the bound that it is beyond. -/
def clampTo (lo hi v : α) : α := max lo (min v hi)

theorem clampTo_mem {lo hi : α} (h : lo ≤ hi) (v : α) : clampTo lo hi v ∈ Set.Icc lo hi :=
  ⟨le_max_left _ _, max_le h (min_le_right _ _)⟩

@[simp] theorem clampTo_of_mem {lo hi v : α} (h : v ∈ Set.Icc lo hi) : clampTo lo hi v = v := by
  rw [clampTo, min_eq_left h.2, max_eq_right h.1]

theorem clampTo_mono (lo hi : α) : Monotone (clampTo lo hi) :=
  fun _ _ h => max_le_max le_rfl (min_le_min h le_rfl)

end Order

section Moves

variable {α : Type*} [AddCommGroup α] [LinearOrder α] {lo hi x d : α}

/-- A value that is only ever moved within the bounds stays within them. -/
theorem moves_mem {f : ℕ → α} (h : ∀ n, f (n + 1) = clampTo lo hi (f n + d))
    (h0 : f 0 ∈ Set.Icc lo hi) (n : ℕ) : f n ∈ Set.Icc lo hi := by
  cases n with
  | zero => exact h0
  | succ n =>
    rw [h]
    exact clampTo_mem (h0.1.trans h0.2) _

variable [IsOrderedAddMonoid α]

/-- A move up goes up, and no further than asked. -/
theorem clampTo_add_nonneg (hx : x ∈ Set.Icc lo hi) (hd : 0 ≤ d) :
    x ≤ clampTo lo hi (x + d) ∧ clampTo lo hi (x + d) ≤ x + d := by
  have hup : x ≤ x + d := le_add_of_nonneg_right hd
  exact ⟨le_max_of_le_right (le_min hup hx.2), max_le (hx.1.trans hup) (min_le_left _ _)⟩

/-- A move down goes down, and no further than asked. -/
theorem clampTo_add_nonpos (hx : x ∈ Set.Icc lo hi) (hd : d ≤ 0) :
    x + d ≤ clampTo lo hi (x + d) ∧ clampTo lo hi (x + d) ≤ x := by
  have hdown : x + d ≤ x := add_le_of_nonpos_right hd
  exact ⟨le_max_of_le_right (le_min le_rfl (hdown.trans hx.2)),
    max_le hx.1 ((min_le_left _ _).trans hdown)⟩

/-- Clamping never lengthens a move. -/
theorem abs_clampTo_add_sub_le (hx : x ∈ Set.Icc lo hi) : |clampTo lo hi (x + d) - x| ≤ |d| := by
  rcases le_total 0 d with hd | hd
  · obtain ⟨hle, hge⟩ := clampTo_add_nonneg hx hd
    rw [abs_of_nonneg (sub_nonneg.mpr hle), abs_of_nonneg hd]
    exact sub_le_iff_le_add'.mpr hge
  · obtain ⟨hge, hle⟩ := clampTo_add_nonpos hx hd
    rw [abs_of_nonpos (sub_nonpos.mpr hle), abs_of_nonpos hd, neg_sub]
    exact sub_le_comm.mp ((sub_neg_eq_add x d).le.trans hge)

theorem monotone_of_moves {f : ℕ → α} (h : ∀ n, f (n + 1) = clampTo lo hi (f n + d))
    (h0 : f 0 ∈ Set.Icc lo hi) (hd : 0 ≤ d) : Monotone f := by
  refine monotone_nat_of_le_succ fun n => ?_
  rw [h]
  exact (clampTo_add_nonneg (moves_mem h h0 n) hd).1

theorem antitone_of_moves {f : ℕ → α} (h : ∀ n, f (n + 1) = clampTo lo hi (f n + d))
    (h0 : f 0 ∈ Set.Icc lo hi) (hd : d ≤ 0) : Antitone f := by
  refine antitone_nat_of_succ_le fun n => ?_
  rw [h]
  exact (clampTo_add_nonpos (moves_mem h h0 n) hd).2

end Moves

end Lib
