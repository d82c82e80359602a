import Mathlib.Data.Rat.Floor
import Mathlib.Tactic.Linarith

/-!
# Pictures in a raster

A picture is fitted into a box by one scale for both sides, the smaller of the
two ratios, and its sides are rounded. With any rounding to a nearest integer
the result fits (`fitted_le`) and fills the box on one side (`fitted_fills`).

The lines of a raster stand one behind the other at a fixed distance. A row of
a picture that is put on a line stays on it (`row_le`), and rows on different
lines do not meet (`row_end_le`).
-/

namespace Lib

/-! ## Rounding -/

/-- A rule that rounds to a nearest integer; halves may go either way. -/
structure Rounding where
  round : ℚ → ℤ
  nearest : ∀ q, |q - round q| ≤ 1 / 2

namespace Rounding

variable (ρ : Rounding)

theorem round_intCast (n : ℤ) : ρ.round n = n := by
  have h := abs_le.mp (ρ.nearest n)
  have hlow : ((ρ.round n : ℤ) : ℚ) < (n + 1 : ℤ) := by push_cast; linarith [h.1]
  have hhigh : ((n : ℤ) : ℚ) < (ρ.round n + 1 : ℤ) := by push_cast; linarith [h.2]
  have := Int.cast_lt.mp hlow
  have := Int.cast_lt.mp hhigh
  omega

/-- Rounding does not pass an integer. -/
theorem round_le {q : ℚ} {n : ℤ} (h : q ≤ n) : ρ.round q ≤ n := by
  have hq := abs_le.mp (ρ.nearest q)
  have hlt : ((ρ.round q : ℤ) : ℚ) < (n + 1 : ℤ) := by push_cast; linarith [hq.1]
  have := Int.cast_lt.mp hlt
  omega

/-- Rounding does not pass an integer from above either. -/
theorem le_round {q : ℚ} {n : ℤ} (h : n ≤ q) : n ≤ ρ.round q := by
  have hq := abs_le.mp (ρ.nearest q)
  have hlt : ((n : ℤ) : ℚ) < (ρ.round q + 1 : ℤ) := by push_cast; linarith [hq.2]
  have := Int.cast_lt.mp hlt
  omega

/-- Halves go to the even one of their neighbours. -/
def halfEven : Rounding where
  round q := if q - ⌊q⌋ = 1 / 2 ∧ ⌊q⌋ % 2 = 0 then ⌊q⌋ else ⌊q + 1 / 2⌋
  nearest q := by
    split
    · rename_i h
      rw [h.1, abs_of_pos (by norm_num)]
    · have hle := Int.floor_le (q + 1 / 2)
      have hlt := Int.lt_floor_add_one (q + 1 / 2)
      exact abs_le.mpr ⟨by linarith, by linarith⟩

end Rounding

/-! ## Fitting -/

/-- The scale that fits a picture of `c` by `r` into a box of `x` by `y`. -/
def fitScale (x y c r : ℚ) : ℚ := min (x / c) (y / r)

section Fit

variable {x y c r : ℚ} (hc : 0 < c) (hr : 0 < r)
include hc hr

theorem mul_fitScale_le : c * fitScale x y c r ≤ x ∧ r * fitScale x y c r ≤ y := by
  unfold fitScale
  constructor
  · calc c * min (x / c) (y / r) ≤ c * (x / c) := by gcongr; exact min_le_left _ _
      _ = x := mul_div_cancel₀ x hc.ne'
  · calc r * min (x / c) (y / r) ≤ r * (y / r) := by gcongr; exact min_le_right _ _
      _ = y := mul_div_cancel₀ y hr.ne'

theorem mul_fitScale_eq : c * fitScale x y c r = x ∨ r * fitScale x y c r = y := by
  unfold fitScale
  rcases min_choice (x / c) (y / r) with h | h
  · rw [h]
    exact .inl (mul_div_cancel₀ x hc.ne')
  · rw [h]
    exact .inr (mul_div_cancel₀ y hr.ne')

theorem fitScale_nonneg (hx : 0 ≤ x) (hy : 0 ≤ y) : 0 ≤ fitScale x y c r :=
  le_min (div_nonneg hx hc.le) (div_nonneg hy hr.le)

/-- A picture that is wider or higher than the box is not enlarged. -/
theorem fitScale_le_one (h : x ≤ c ∨ y ≤ r) : fitScale x y c r ≤ 1 := by
  unfold fitScale
  rcases h with h | h
  · exact (min_le_left _ _).trans ((div_le_one hc).mpr h)
  · exact (min_le_right _ _).trans ((div_le_one hr).mpr h)

end Fit

/-- **Fitted sides** are inside the box. -/
theorem fitted_le (ρ : Rounding) {x y : ℤ} {c r : ℚ} (hc : 0 < c) (hr : 0 < r) :
    ρ.round (c * fitScale x y c r) ≤ x ∧ ρ.round (r * fitScale x y c r) ≤ y := by
  obtain ⟨hx, hy⟩ := mul_fitScale_le hc hr (x := x) (y := y)
  exact ⟨ρ.round_le hx, ρ.round_le hy⟩

/-- One side fills the box. -/
theorem fitted_fills (ρ : Rounding) {x y : ℤ} {c r : ℚ} (hc : 0 < c) (hr : 0 < r) :
    ρ.round (c * fitScale x y c r) = x ∨ ρ.round (r * fitScale x y c r) = y := by
  rcases mul_fitScale_eq hc hr (x := x) (y := y) with h | h
  · rw [h]
    exact .inl (ρ.round_intCast x)
  · rw [h]
    exact .inr (ρ.round_intCast y)

/-! ## Lines -/

/-- Where a row begins that is put on line `y` from byte `x` on. -/
def rowStart (stride x y : ℕ) : ℕ := y * stride + x

variable {stride x y y' len : ℕ}

/-- A row on a line is between this line's start and the next one's. -/
theorem row_le (h : x + len ≤ stride) :
    y * stride ≤ rowStart stride x y ∧ rowStart stride x y + len ≤ (y + 1) * stride := by
  unfold rowStart
  constructor
  · exact Nat.le_add_right _ _
  · rw [Nat.succ_mul]
    omega

/-- A row ends before a row on a later line begins. -/
theorem row_end_le (h : x + len ≤ stride) (hy : y < y') :
    rowStart stride x y + len ≤ rowStart stride x y' :=
  calc rowStart stride x y + len ≤ (y + 1) * stride := (row_le h).2
    _ ≤ y' * stride := Nat.mul_le_mul_right stride hy
    _ ≤ rowStart stride x y' := Nat.le_add_right _ _

end Lib
