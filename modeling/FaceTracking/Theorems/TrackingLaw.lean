import FaceTracking.Servo.AxisControl

/-!
# The step law of auto-tracking

In exact arithmetic a detection moves an axis by a clamped multiple of its
error. Seen from the gimbal the error is `sign * error`: the drive on an axis
is a monotone function of it (`drive_mono`) that is zero at zero, so the axis
never moves away from the face, moves further for a larger error, and moves
one way only as long as the detection stays the same (`tracking_law`).
-/

namespace FaceTracking

open Lib ExtRat

namespace Axis

variable (a : Axis)

/-- The term for an error as the gimbal sees it. -/
def drive (e : ℚ) : ℚ := if (a.deadzonePx : ℚ) < |e| then a.gain * e else 0

theorem step_eq (err : ℚ) :
    a.step err = clampTo (-a.maxStepDeg) a.maxStepDeg (a.drive (a.sign * err)) := by
  have habs : |a.sign * err| = |err| := by
    rcases a.sign_unit with h | h <;> simp [h]
  unfold step drive
  rw [habs]
  congr 2
  ring

theorem drive_mono : Monotone a.drive := by
  have hdead : (0 : ℚ) ≤ a.deadzonePx := by exact_mod_cast a.deadzone_nonneg
  intro e e' hle
  unfold drive
  split
  · rename_i hout
    split
    · exact mul_le_mul_of_nonneg_left hle a.gain_nonneg
    · -- leaving the deadzone upwards only: the lower error is on the far side of it
      rename_i hin
      have hneg : e ≤ 0 := by
        by_contra hpos
        rw [abs_of_pos (not_le.mp hpos)] at hout
        exact hin (hout.trans_le (hle.trans (le_abs_self e')))
      exact mul_nonpos_of_nonneg_of_nonpos a.gain_nonneg hneg
  · rename_i hin
    split
    · rename_i hout
      have hpos : 0 ≤ e' := by
        by_contra hneg
        rw [abs_of_neg (not_le.mp hneg)] at hout
        exact hin (hout.trans_le ((neg_le_neg hle).trans (neg_le_abs e)))
      exact mul_nonneg a.gain_nonneg hpos
    · exact le_rfl

theorem drive_zero : a.drive 0 = 0 := by
  unfold drive
  split <;> simp

theorem zero_mem : (0 : ℚ) ∈ Set.Icc (-a.maxStepDeg) a.maxStepDeg :=
  ⟨neg_nonpos.mpr a.maxStep_nonneg, a.maxStep_nonneg⟩

theorem step_le {err err' : ℚ} (h : a.sign * err ≤ a.sign * err') : a.step err ≤ a.step err' := by
  rw [step_eq, step_eq]
  exact clampTo_mono _ _ (a.drive_mono h)

theorem step_nonneg {err : ℚ} (h : 0 ≤ a.sign * err) : 0 ≤ a.step err := by
  rw [step_eq, ← clampTo_of_mem a.zero_mem]
  exact clampTo_mono _ _ (a.drive_zero ▸ a.drive_mono h)

theorem step_nonpos {err : ℚ} (h : a.sign * err ≤ 0) : a.step err ≤ 0 := by
  rw [step_eq, ← clampTo_of_mem a.zero_mem]
  exact clampTo_mono _ _ (a.drive_zero ▸ a.drive_mono h)

theorem abs_step_le (err : ℚ) : |a.step err| ≤ a.maxStepDeg :=
  abs_le.mpr (clampTo_mem (neg_le_self a.maxStep_nonneg) _)

theorem step_of_le {err : ℚ} (h : |err| ≤ a.deadzonePx) : a.step err = 0 := by
  unfold step
  rw [if_neg (not_lt.mpr h), clampTo_of_mem a.zero_mem]

/-! ## One detection -/

/-- What one detection may do to an axis. -/
structure Obeys (followed : Prop) (err x x' : ℚ) : Prop where
  holds : ¬ followed ∨ |err| ≤ a.deadzonePx → x' = x
  bounded : |x' - x| ≤ a.maxStepDeg
  towards : 0 ≤ a.sign * err * (x' - x)
  within : x' ∈ Set.Icc a.lo a.hi

variable {a} {x : ℚ}

theorem obeys_still {followed : Prop} (err : ℚ) (hx : x ∈ Set.Icc a.lo a.hi) :
    a.Obeys followed err x x :=
  ⟨fun _ => rfl, by simpa using a.maxStep_nonneg, by simp, hx⟩

theorem follow_obeys {followed : Prop} (hf : followed) (err : ℚ) (hx : x ∈ Set.Icc a.lo a.hi) :
    a.Obeys followed err x (a.follow err x) where
  holds h := by
    have hdead : |err| ≤ a.deadzonePx := h.resolve_left (not_not.mpr hf)
    rw [follow, a.step_of_le hdead, add_zero, clampTo_of_mem hx]
  bounded := (abs_clampTo_add_sub_le hx).trans (a.abs_step_le err)
  towards := by
    rcases le_total 0 (a.sign * err) with h | h
    · exact mul_nonneg h (sub_nonneg.mpr (clampTo_add_nonneg hx (a.step_nonneg h)).1)
    · exact mul_nonneg_of_nonpos_of_nonpos h
        (sub_nonpos.mpr (clampTo_add_nonpos hx (a.step_nonpos h)).2)
  within := clampTo_mem a.ordered _

theorem follow_le {err err' : ℚ} (h : a.sign * err ≤ a.sign * err') (x : ℚ) :
    a.follow err x ≤ a.follow err' x :=
  clampTo_mono _ _ (by gcongr; exact a.step_le h)

/-- The same detection again and again moves an axis in one direction. -/
theorem iterate_follow_monotone (err : ℚ) (hx : x ∈ Set.Icc a.lo a.hi) :
    Monotone (fun n => (a.follow err)^[n] x) ∨ Antitone fun n => (a.follow err)^[n] x := by
  have hstep : ∀ n, (a.follow err)^[n + 1] x =
      clampTo a.lo a.hi ((a.follow err)^[n] x + a.step err) :=
    fun n => Function.iterate_succ_apply' _ _ _
  rcases le_total 0 (a.step err) with h | h
  · exact .inl (monotone_of_moves hstep hx h)
  · exact .inr (antitone_of_moves hstep hx h)

end Axis

namespace PanTiltTracker

variable {t : PanTiltTracker} {pan tilt : Axis} {x y : ℚ}

theorem Exact.unique {x' y' : ℚ} (h : Exact pan tilt t x y) (h' : Exact pan tilt t x' y') :
    x' = x ∧ y' = y :=
  ⟨ExtRat.fin.inj (h'.pan_eq.symm.trans h.pan_eq), ExtRat.fin.inj (h'.tilt_eq.symm.trans h.tilt_eq)⟩

/-- A fixed snapshot that is followed moves each axis like its own iteration. -/
theorem iterate_exact (h : Exact pan tilt t x y) {s : Snapshot} (hs : s.Followed) (n : ℕ) :
    Exact pan tilt ((fun t => t.updateAuto s)^[n] t) ((pan.follow s.errX)^[n] x)
      ((tilt.follow s.errY)^[n] y) := by
  induction n with
  | zero => exact h
  | succ n ih =>
    rw [Function.iterate_succ_apply', Function.iterate_succ_apply', Function.iterate_succ_apply']
    exact updateAuto_exact ih hs

/-- **The step law.** For a tracker in exact arithmetic within its limits: what
a detection does to each axis, how that depends on the error, what repeating
it does, and on what alone an axis depends. -/
theorem tracking_law (h : Exact pan tilt t x y) (hx : x ∈ Set.Icc pan.lo pan.hi)
    (hy : y ∈ Set.Icc tilt.lo tilt.hi) (s : Snapshot) :
    (∃ x' y', Exact pan tilt (t.updateAuto s) x' y' ∧ pan.Obeys s.Followed s.errX x x' ∧
      tilt.Obeys s.Followed s.errY y y') ∧
    (∀ s', s.Followed → s'.Followed → ∀ x₁ y₁ x₂ y₂, Exact pan tilt (t.updateAuto s) x₁ y₁ →
      Exact pan tilt (t.updateAuto s') x₂ y₂ →
      (pan.sign * s.errX ≤ pan.sign * s'.errX → x₁ ≤ x₂) ∧
        (tilt.sign * s.errY ≤ tilt.sign * s'.errY → y₁ ≤ y₂)) ∧
    (∃ xs ys : ℕ → ℚ, (∀ n, Exact pan tilt ((fun t => t.updateAuto s)^[n] t) (xs n) (ys n)) ∧
      (Monotone xs ∨ Antitone xs) ∧ (Monotone ys ∨ Antitone ys)) ∧
    (∀ (t' : PanTiltTracker) (s' : Snapshot), (s'.Followed ↔ s.Followed) →
      (∀ tilt' y', Exact pan tilt' t' x y' → s'.errX = s.errX →
        (t'.updateAuto s').pan = (t.updateAuto s).pan) ∧
      (∀ pan' x', Exact pan' tilt t' x' y → s'.errY = s.errY →
        (t'.updateAuto s').tilt = (t.updateAuto s).tilt)) := by
  refine ⟨?_, ?_, ?_, ?_⟩
  · by_cases hs : s.Followed
    · exact ⟨_, _, updateAuto_exact h hs, Axis.follow_obeys hs _ hx, Axis.follow_obeys hs _ hy⟩
    · rw [updateAuto_of_not_followed hs]
      exact ⟨x, y, h, Axis.obeys_still _ hx, Axis.obeys_still _ hy⟩
  · intro s' hs hs' x₁ y₁ x₂ y₂ h₁ h₂
    obtain ⟨rfl, rfl⟩ := (updateAuto_exact h hs).unique h₁
    obtain ⟨rfl, rfl⟩ := (updateAuto_exact h hs').unique h₂
    exact ⟨fun he => Axis.follow_le he x, fun he => Axis.follow_le he y⟩
  · by_cases hs : s.Followed
    · exact ⟨_, _, iterate_exact h hs, Axis.iterate_follow_monotone _ hx,
        Axis.iterate_follow_monotone _ hy⟩
    · have hfix : ∀ n, (fun t : PanTiltTracker => t.updateAuto s)^[n] t = t :=
        fun n => Function.iterate_fixed (updateAuto_of_not_followed hs) n
      refine ⟨fun _ => x, fun _ => y, fun n => ?_, .inl monotone_const, .inl monotone_const⟩
      rw [hfix]
      exact h
  · intro t' s' hsame
    by_cases hs : s.Followed
    · have hs' := hsame.mpr hs
      have hnew := updateAuto_exact h hs
      refine ⟨fun tilt' y' h' herr => ?_, fun pan' x' h' herr => ?_⟩
      · rw [(updateAuto_exact h' hs').pan_eq, hnew.pan_eq, herr]
      · rw [(updateAuto_exact h' hs').tilt_eq, hnew.tilt_eq, herr]
    · have hs' := mt hsame.mp hs
      rw [updateAuto_of_not_followed hs, updateAuto_of_not_followed hs']
      refine ⟨fun tilt' y' h' _ => ?_, fun pan' x' h' _ => ?_⟩
      · rw [h'.pan_eq, h.pan_eq]
      · rw [h'.tilt_eq, h.tilt_eq]

/-- The axes of `Config`. -/
def configPan : Axis :=
  ⟨⟨10, 170, by norm_num⟩, 30, 1, 3 / 100, 4, by norm_num, .inl rfl, by norm_num, by norm_num⟩

def configTilt : Axis :=
  ⟨⟨40, 140, by norm_num⟩, 30, -1, 3 / 100, 4, by norm_num, .inr rfl, by norm_num, by norm_num⟩

theorem create_default_exact : Exact configPan configTilt (create .default) 90 90 :=
  ⟨⟨rfl, rfl, rfl, rfl, rfl, rfl⟩, rfl, rfl, rfl, rfl, rfl, rfl, rfl, rfl⟩

/-- A face to the right of the middle and above it. -/
def faceRight : Snapshot := ⟨true, ⟨570, 70, 60, 60⟩, ⟨600, 100⟩, 640, 480⟩

theorem tracking_law_default :
    ((create .default).updateAuto faceRight).pan = .fin 94 ∧
      ∃ x' y', Exact configPan configTilt ((create .default).updateAuto faceRight) x' y' ∧
        configPan.Obeys faceRight.Followed faceRight.errX 90 x' ∧
        configTilt.Obeys faceRight.Followed faceRight.errY 90 y' :=
  ⟨by decide +kernel, (tracking_law create_default_exact
    ⟨by norm_num [configPan], by norm_num [configPan]⟩
    ⟨by norm_num [configTilt], by norm_num [configTilt]⟩ faceRight).1⟩

end PanTiltTracker

end FaceTracking
