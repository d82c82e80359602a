import FaceTracking.Lib.Bytes
import FaceTracking.Lib.Clamp

/-!
# Extended rationals with NaN

Floating-point values as exact rationals, two infinities and NaN, with the
IEEE comparison rules: every comparison with NaN is false. Signed zeros and
rounding are left out.

The one fact about `clamp` that its users need is `clamp_mem`: between two
numbers in order, clamping a value other than NaN lands between them. With NaN
both comparisons are false, so NaN passes through (`clamp_nan`).
-/

namespace Lib

inductive ExtRat where
  | nan
  | negInf
  | fin (q : ℚ)
  | posInf
deriving DecidableEq

namespace ExtRat

/-! ## Comparisons -/

/-- The IEEE `<`. -/
def lt : ExtRat → ExtRat → Bool
  | .nan, _ => false
  | _, .nan => false
  | .negInf, .negInf => false
  | .negInf, _ => true
  | .fin a, .fin b => decide (a < b)
  | .fin _, .posInf => true
  | .fin _, .negInf => false
  | .posInf, _ => false

/-- The IEEE `<=`. -/
def le : ExtRat → ExtRat → Bool
  | .nan, _ => false
  | _, .nan => false
  | .negInf, _ => true
  | .fin a, .fin b => decide (a ≤ b)
  | .fin _, .posInf => true
  | .fin _, .negInf => false
  | .posInf, .posInf => true
  | .posInf, _ => false

@[simp] theorem lt_fin (a b : ℚ) : lt (.fin a) (.fin b) = decide (a < b) := rfl

@[simp] theorem le_fin (a b : ℚ) : le (.fin a) (.fin b) = decide (a ≤ b) := rfl

@[simp] theorem lt_nan_left (a : ExtRat) : lt .nan a = false := rfl

@[simp] theorem lt_nan_right (a : ExtRat) : lt a .nan = false := by cases a <;> rfl

theorem le_of_not_lt {a b : ExtRat} (ha : a ≠ .nan) (hb : b ≠ .nan) (h : lt a b = false) :
    le b a = true := by
  cases a <;> cases b <;> simp_all [lt, le]

theorem ne_nan_of_le_left {a b : ExtRat} (h : le a b = true) : a ≠ .nan := by
  rintro rfl
  cases b <;> simp [le] at h

theorem ne_nan_of_le_right {a b : ExtRat} (h : le a b = true) : b ≠ .nan := by
  rintro rfl
  cases a <;> simp [le] at h

theorem le_trans {a b c : ExtRat} (hab : le a b = true) (hbc : le b c = true) :
    le a c = true := by
  cases a <;> cases b <;> cases c <;> simp_all [le]
  exact hab.trans hbc

/-- A value between two rationals is a rational. -/
theorem exists_fin_of_le {a b : ℚ} {v : ExtRat} (ha : le (.fin a) v = true)
    (hb : le v (.fin b) = true) : ∃ q, v = .fin q ∧ a ≤ q ∧ q ≤ b := by
  cases v with
  | nan => simp [le] at ha
  | negInf => simp [le] at ha
  | posInf => simp [le] at hb
  | fin q => exact ⟨q, rfl, by simpa using ha, by simpa using hb⟩

/-! ## Clamping -/

/-- `std::clamp`: the low bound if `v` is below it, the high bound if `v` is
above it, `v` itself otherwise. -/
def clamp (v lo hi : ExtRat) : ExtRat :=
  if lt v lo then lo else if lt hi v then hi else v

@[simp] theorem clamp_nan (lo hi : ExtRat) : clamp .nan lo hi = .nan := by
  simp [clamp]

theorem clamp_mem {v lo hi : ExtRat} (h : le lo hi = true) (hv : v ≠ .nan) :
    le lo (clamp v lo hi) = true ∧ le (clamp v lo hi) hi = true := by
  have hlo := ne_nan_of_le_left h
  have hhi := ne_nan_of_le_right h
  unfold clamp
  split
  · exact ⟨le_of_not_lt hlo hlo (by cases lo <;> simp [lt]), h⟩
  · rename_i hlt
    split
    · exact ⟨h, le_of_not_lt hhi hhi (by cases hi <;> simp [lt])⟩
    · rename_i hgt
      exact ⟨le_of_not_lt hv hlo (by simpa using hlt), le_of_not_lt hhi hv (by simpa using hgt)⟩

/-- Between rationals it is the clamp of the rationals. -/
theorem clamp_fin {v lo hi : ℚ} (h : lo ≤ hi) :
    clamp (.fin v) (.fin lo) (.fin hi) = .fin (clampTo lo hi v) := by
  unfold clamp
  simp only [lt_fin, decide_eq_true_eq]
  split
  · rename_i hlow
    rw [clampTo, min_eq_left (hlow.le.trans h), max_eq_left hlow.le]
  · rename_i hlow
    have hlo : lo ≤ v := not_lt.mp hlow
    split
    · rename_i hhigh
      rw [clampTo, min_eq_right hhigh.le, max_eq_right h]
    · rename_i hhigh
      rw [clampTo_of_mem ⟨hlo, not_lt.mp hhigh⟩]

/-! ## Arithmetic -/

/-- The value of an integer converted to floating point. -/
def ofInt (n : Int) : ExtRat := .fin n

def neg : ExtRat → ExtRat
  | .nan => .nan
  | .negInf => .posInf
  | .fin q => .fin (-q)
  | .posInf => .negInf

def abs : ExtRat → ExtRat
  | .nan => .nan
  | .negInf => .posInf
  | .fin q => .fin |q|
  | .posInf => .posInf

def add : ExtRat → ExtRat → ExtRat
  | .nan, _ => .nan
  | _, .nan => .nan
  | .fin a, .fin b => .fin (a + b)
  | .posInf, .negInf => .nan
  | .negInf, .posInf => .nan
  | .posInf, _ => .posInf
  | _, .posInf => .posInf
  | .negInf, _ => .negInf
  | _, .negInf => .negInf

def sub (a b : ExtRat) : ExtRat := add a (neg b)

/-- The sign of a value other than NaN. -/
def sign : ExtRat → SignType
  | .nan => 0
  | .negInf => -1
  | .fin q => SignType.sign q
  | .posInf => 1

/-- The infinity of a given sign; zero times an infinity is NaN. -/
def infOfSign : SignType → ExtRat
  | .neg => .negInf
  | .zero => .nan
  | .pos => .posInf

def mul : ExtRat → ExtRat → ExtRat
  | .nan, _ => .nan
  | _, .nan => .nan
  | .fin a, .fin b => .fin (a * b)
  | a, b => infOfSign (sign a * sign b)

/-- Is it one of the two infinities? -/
def isInf : ExtRat → Bool
  | .negInf | .posInf => true
  | _ => false

/-- Division by a positive constant. -/
def divPos (a : ExtRat) (q : ℚ) : ExtRat :=
  match a with
  | .fin x => .fin (x / q)
  | v => v

/-- Conversion to an integer type with the given range, truncating toward
zero. `none` is the undefined conversion: NaN, an infinity, or a value whose
integral part does not fit. -/
def toInt? (lo hi : Int) : ExtRat → Option Int
  | .fin q =>
    let n := q.num.tdiv q.den
    if lo ≤ n ∧ n ≤ hi then some n else none
  | _ => none

/-- Adding anything but NaN to a rational gives something other than NaN. -/
theorem fin_add_ne_nan (q : ℚ) {v : ExtRat} (h : v ≠ .nan) : add (.fin q) v ≠ .nan := by
  cases v <;> simp_all [add]

theorem neg_le_self {v : ExtRat} (h : le (.fin 0) v = true) : le v.neg v = true := by
  cases v with
  | nan => simp [le] at h
  | negInf => simp [le] at h
  | posInf => rfl
  | fin q =>
    have hq : 0 ≤ q := by simpa using h
    simpa [neg] using (neg_nonpos.mpr hq).trans hq

theorem sign_eq_zero {v : ExtRat} (hv : v ≠ .nan) (h : v.sign = 0) : v = .fin 0 := by
  cases v with
  | nan => exact absurd rfl hv
  | negInf => cases h
  | posInf => cases h
  | fin q => rw [sign_eq_zero_iff.mp h]

theorem infOfSign_ne_nan {σ : SignType} (h : σ ≠ 0) : infOfSign σ ≠ .nan := by
  cases σ <;> simp_all [infOfSign]

/-- A product is a number if both factors are and no infinity meets a zero. -/
theorem mul_ne_nan {a b : ExtRat} (ha : a ≠ .nan) (hb : b ≠ .nan)
    (h : a.isInf = true ∨ b.isInf = true → a ≠ .fin 0 ∧ b ≠ .fin 0) : mul a b ≠ .nan := by
  have hsign : a.isInf = true ∨ b.isInf = true → infOfSign (a.sign * b.sign) ≠ .nan := by
    intro hinf
    refine infOfSign_ne_nan (mul_ne_zero ?_ ?_)
    · exact fun h0 => (h hinf).1 (sign_eq_zero ha h0)
    · exact fun h0 => (h hinf).2 (sign_eq_zero hb h0)
  cases a <;> cases b <;> simp_all [mul, isInf]

/-- A product is infinite only if a factor is. -/
theorem isInf_mul {a b : ExtRat} (h : (mul a b).isInf = true) :
    a.isInf = true ∨ b.isInf = true := by
  cases a <;> cases b <;> simp_all [mul, isInf]

/-- Truncation of a nonnegative rational is its floor. -/
theorem toInt?_of_nonneg {lo hi : Int} {q : ℚ} (h0 : 0 ≤ q) (hlo : lo ≤ 0) (hhi : q ≤ hi) :
    toInt? lo hi (.fin q) = some ⌊q⌋ := by
  have hfl : q.num.tdiv q.den = ⌊q⌋ := by
    rw [Int.tdiv_eq_ediv_of_nonneg (Rat.num_nonneg.mpr h0), Rat.floor_def']
  have hpos : 0 ≤ ⌊q⌋ := Int.floor_nonneg.mpr h0
  have hle : ⌊q⌋ ≤ hi := by exact_mod_cast (Int.floor_le q).trans hhi
  simp only [toInt?, hfl]
  rw [if_pos ⟨by omega, hle⟩]

end ExtRat

end Lib
