import FaceTracking.Servo.PanTiltTracker

/-!
# One axis in exact arithmetic

The tracker's arithmetic over the rationals, one axis at a time: what a manual
command does to an angle (`Limits.manual`) and what a detection does to it
(`Axis.follow`). On a tracker whose numbers are all rational the updates are
these two (`manual_exact`, `updateAuto_exact`).
-/

namespace FaceTracking

open Lib ExtRat

/-! ## Manual commands -/

/-- The range of an axis. -/
structure Limits where
  lo : ℚ
  hi : ℚ
  ordered : lo ≤ hi

/-- The value of a rational. -/
def rat : ExtRat → ℚ
  | .fin q => q
  | _ => 0

/-- A command without NaN and infinities. -/
def Command.Rational (c : Command) : Prop := c.pan = .fin (rat c.pan) ∧ c.tilt = .fin (rat c.tilt)

instance (c : Command) : Decidable c.Rational := inferInstanceAs (Decidable (_ ∧ _))

/-- What a command makes of an axis' angle; `number` is the one of its two
numbers that is meant for the axis. -/
def Limits.manual (l : Limits) (number : Command → ExtRat) (x : ℚ) (c : Command) : ℚ :=
  match c.type with
  | .ServoStep => clampTo l.lo l.hi (x + rat (number c))
  | .ServoAbs => clampTo l.lo l.hi (rat (number c))
  | .SetMode => x

namespace PanTiltTracker

/-- What a command makes of the tracker. -/
def manual (t : PanTiltTracker) (c : Command) : PanTiltTracker :=
  match c.type with
  | .ServoStep => t.nudge c.pan c.tilt
  | .ServoAbs => t.setAbs c.pan c.tilt
  | .SetMode => t

@[simp] theorem manual_p (t : PanTiltTracker) (c : Command) : (t.manual c).p = t.p := by
  unfold manual
  split <;> rfl

@[simp] theorem manuals_p (t : PanTiltTracker) (cs : List Command) :
    (cs.foldl manual t).p = t.p := by
  induction cs generalizing t with
  | nil => rfl
  | cons c cs ih => exact (ih _).trans (manual_p t c)

/-- A tracker whose limits and angles are rational. -/
structure ExactManual (pan tilt : Limits) (t : PanTiltTracker) (x y : ℚ) : Prop where
  panMin : t.p.panMin = .fin pan.lo
  panMax : t.p.panMax = .fin pan.hi
  tiltMin : t.p.tiltMin = .fin tilt.lo
  tiltMax : t.p.tiltMax = .fin tilt.hi
  pan_eq : t.pan = .fin x
  tilt_eq : t.tilt = .fin y

variable {t : PanTiltTracker} {x y : ℚ}

theorem manual_exact {pan tilt : Limits} (h : ExactManual pan tilt t x y) {c : Command}
    (hc : c.Rational) :
    ExactManual pan tilt (t.manual c) (pan.manual Command.pan x c)
      (tilt.manual Command.tilt y c) := by
  obtain ⟨hpanMin, hpanMax, htiltMin, htiltMax, hpan, htilt⟩ := h
  obtain ⟨hcpan, hctilt⟩ := hc
  unfold manual Limits.manual
  split
  · refine ⟨hpanMin, hpanMax, htiltMin, htiltMax, ?_, ?_⟩
    · simp only [nudge, hpanMin, hpanMax, hpan]
      rw [hcpan, add, clamp_fin pan.ordered]
      rfl
    · simp only [nudge, htiltMin, htiltMax, htilt]
      rw [hctilt, add, clamp_fin tilt.ordered]
      rfl
  · refine ⟨hpanMin, hpanMax, htiltMin, htiltMax, ?_, ?_⟩
    · simp only [setAbs, hpanMin, hpanMax]
      rw [hcpan, clamp_fin pan.ordered]
      rfl
    · simp only [setAbs, htiltMin, htiltMax]
      rw [hctilt, clamp_fin tilt.ordered]
      rfl
  · exact ⟨hpanMin, hpanMax, htiltMin, htiltMax, hpan, htilt⟩

/-- A sequence of commands moves both axes as in exact arithmetic. -/
theorem manuals_exact {pan tilt : Limits} {cs : List Command} (hcs : ∀ c ∈ cs, c.Rational)
    (h : ExactManual pan tilt t x y) :
    ExactManual pan tilt (cs.foldl manual t) (cs.foldl (pan.manual Command.pan) x)
      (cs.foldl (tilt.manual Command.tilt) y) := by
  induction cs generalizing t x y with
  | nil => exact h
  | cons c cs ih =>
    exact ih (fun c hc => hcs c (List.mem_cons_of_mem _ hc))
      (manual_exact h (hcs c List.mem_cons_self))

end PanTiltTracker

/-! ## Following a face -/

/-- An axis and how it follows an error. -/
structure Axis extends Limits where
  deadzonePx : ℤ
  sign : ℚ
  gain : ℚ
  maxStepDeg : ℚ
  deadzone_nonneg : 0 ≤ deadzonePx
  sign_unit : sign = 1 ∨ sign = -1
  gain_nonneg : 0 ≤ gain
  maxStep_nonneg : 0 ≤ maxStepDeg

/-- The tracker follows the snapshot: there is a face, in a frame with a size. -/
def Snapshot.Followed (s : Snapshot) : Prop := s.found = true ∧ 0 < s.frameW ∧ 0 < s.frameH

/-- How far right of the middle the face is. -/
def Snapshot.errX (s : Snapshot) : ℚ := s.center.x - s.frameW / 2

/-- How far below the middle the face is. -/
def Snapshot.errY (s : Snapshot) : ℚ := s.center.y - s.frameH / 2

namespace Axis

/-- The change of angle for an error. -/
def step (a : Axis) (err : ℚ) : ℚ :=
  clampTo (-a.maxStepDeg) a.maxStepDeg
    (if (a.deadzonePx : ℚ) < |err| then a.sign * a.gain * err else 0)

def follow (a : Axis) (err x : ℚ) : ℚ := clampTo a.lo a.hi (x + a.step err)

end Axis

namespace PanTiltTracker

/-- A tracker whose numbers are all rational. -/
structure Exact (pan tilt : Axis) (t : PanTiltTracker) (x y : ℚ) : Prop
    extends ExactManual pan.toLimits tilt.toLimits t x y where
  deadzone_pan : t.p.deadzonePx = pan.deadzonePx
  deadzone_tilt : t.p.deadzonePx = tilt.deadzonePx
  panSign : t.p.panSign = .fin pan.sign
  tiltSign : t.p.tiltSign = .fin tilt.sign
  gainPan : t.p.gainPan = .fin pan.gain
  gainTilt : t.p.gainTilt = .fin tilt.gain
  step_pan : t.p.maxStepDeg = .fin pan.maxStepDeg
  step_tilt : t.p.maxStepDeg = .fin tilt.maxStepDeg

variable {t : PanTiltTracker} {pan tilt : Axis} {x y : ℚ}

theorem updateAuto_of_not_followed {s : Snapshot} (hs : ¬ s.Followed) : t.updateAuto s = t := by
  unfold updateAuto
  refine if_pos ?_
  simp only [Bool.or_eq_true, Bool.not_eq_true', decide_eq_true_eq]
  by_contra hnot
  simp only [not_or, not_le, Bool.not_eq_false] at hnot
  exact hs ⟨hnot.1.1, hnot.1.2, hnot.2⟩

/-- A detection moves an axis as `Axis.follow` says. -/
theorem clamp_correction (a : Axis) (err x : ℚ) :
    clamp ((ExtRat.fin x).add (clamp (correction a.deadzonePx (.fin a.sign) (.fin a.gain) (.fin err))
      (ExtRat.fin a.maxStepDeg).neg (.fin a.maxStepDeg))) (.fin a.lo) (.fin a.hi) =
      .fin (a.follow err x) := by
  have hcorrection : correction a.deadzonePx (.fin a.sign) (.fin a.gain) (.fin err) =
      .fin (if (a.deadzonePx : ℚ) < |err| then a.sign * a.gain * err else 0) := by
    unfold correction
    simp only [ofInt, ExtRat.abs, lt_fin, decide_eq_true_eq]
    split <;> rfl
  have hstep : -a.maxStepDeg ≤ a.maxStepDeg := neg_le_self a.maxStep_nonneg
  rw [hcorrection, neg, clamp_fin hstep, add, clamp_fin a.ordered]
  rfl

/-- **Refinement.** A detection moves each axis as `Axis.follow` says. -/
theorem updateAuto_exact (h : Exact pan tilt t x y) {s : Snapshot} (hs : s.Followed) :
    Exact pan tilt (t.updateAuto s) (pan.follow s.errX x) (tilt.follow s.errY y) := by
  have hfollow : ¬ (!s.found || s.frameW ≤ 0 || s.frameH ≤ 0) = true := by
    simp [hs.1, hs.2.1, hs.2.2]
  have herr : ∀ c f : ℤ, offset c f = .fin (c - f / 2) := fun c f => by
    simp only [offset, ofInt, sub, divPos, neg, add, ExtRat.fin.injEq]
    ring
  have hpan : (t.updateAuto s).pan = .fin (pan.follow s.errX x) := by
    unfold updateAuto
    rw [if_neg hfollow]
    simp only [h.panMin, h.panMax, h.panSign, h.gainPan, h.step_pan, h.deadzone_pan, h.pan_eq, herr]
    exact clamp_correction pan _ x
  have htilt : (t.updateAuto s).tilt = .fin (tilt.follow s.errY y) := by
    unfold updateAuto
    rw [if_neg hfollow]
    simp only [h.tiltMin, h.tiltMax, h.tiltSign, h.gainTilt, h.step_tilt, h.deadzone_tilt, h.tilt_eq,
      herr]
    exact clamp_correction tilt _ y
  have hp : (t.updateAuto s).p = t.p := updateAuto_p s
  exact ⟨⟨hp ▸ h.panMin, hp ▸ h.panMax, hp ▸ h.tiltMin, hp ▸ h.tiltMax, hpan, htilt⟩,
    hp ▸ h.deadzone_pan, hp ▸ h.deadzone_tilt, hp ▸ h.panSign, hp ▸ h.tiltSign, hp ▸ h.gainPan,
    hp ▸ h.gainTilt, hp ▸ h.step_pan, hp ▸ h.step_tilt⟩

end PanTiltTracker

end FaceTracking
