import FaceTracking.Core.Types

/-!
# The pan/tilt tracker

Proportional control towards the face with a deadzone and a step clamp, and
the manual updates: relative, absolute, home. Both axes go through the same
arithmetic. A double is an extended rational, so the clamps compare as IEEE
says, and NaN passes through them.

`Within` is what the clamps are for. Every update keeps it as long as what is
added or set is not NaN. For the automatic update that is a matter of the
configured sign and gain: `correction_ne_nan`.
-/

namespace FaceTracking

open Lib ExtRat

structure TrackerParams where
  panMin : ExtRat
  panMax : ExtRat
  panHome : ExtRat
  tiltMin : ExtRat
  tiltMax : ExtRat
  tiltHome : ExtRat
  deadzonePx : Int
  gainPan : ExtRat
  gainTilt : ExtRat
  maxStepDeg : ExtRat
  panSign : ExtRat
  tiltSign : ExtRat

/-- The values of `Config`. -/
def TrackerParams.default : TrackerParams where
  panMin := .fin 10
  panMax := .fin 170
  panHome := .fin 90
  tiltMin := .fin 40
  tiltMax := .fin 140
  tiltHome := .fin 90
  deadzonePx := 30
  gainPan := .fin (3 / 100)
  gainTilt := .fin (3 / 100)
  maxStepDeg := .fin 4
  panSign := .fin 1
  tiltSign := .fin (-1)

structure PanTiltTracker where
  p : TrackerParams
  pan : ExtRat
  tilt : ExtRat

namespace PanTiltTracker

def create (p : TrackerParams) : PanTiltTracker := ⟨p, p.panHome, p.tiltHome⟩

/-- Distance of the face's centre from the middle of the frame, along one axis. -/
def offset (center frame : Int) : ExtRat := (ofInt center).sub ((ofInt frame).divPos 2)

/-- The proportional term of one axis; zero inside the deadzone. -/
def correction (deadzonePx : Int) (sign gain err : ExtRat) : ExtRat :=
  if lt (ofInt deadzonePx) err.abs then (sign.mul gain).mul err else .fin 0

/-- P-control toward the face; holds position when there is none. -/
def updateAuto (t : PanTiltTracker) (s : Snapshot) : PanTiltTracker :=
  if !s.found || s.frameW ≤ 0 || s.frameH ≤ 0 then t
  else
    let ex := offset s.center.x s.frameW
    let ey := offset s.center.y s.frameH
    let dPan := correction t.p.deadzonePx t.p.panSign t.p.gainPan ex
    let dTilt := correction t.p.deadzonePx t.p.tiltSign t.p.gainTilt ey
    let dPan := clamp dPan t.p.maxStepDeg.neg t.p.maxStepDeg
    let dTilt := clamp dTilt t.p.maxStepDeg.neg t.p.maxStepDeg
    { t with
      pan := clamp (t.pan.add dPan) t.p.panMin t.p.panMax
      tilt := clamp (t.tilt.add dTilt) t.p.tiltMin t.p.tiltMax }

/-- Manual relative. -/
def nudge (t : PanTiltTracker) (dPanDeg dTiltDeg : ExtRat) : PanTiltTracker :=
  { t with
    pan := clamp (t.pan.add dPanDeg) t.p.panMin t.p.panMax
    tilt := clamp (t.tilt.add dTiltDeg) t.p.tiltMin t.p.tiltMax }

/-- Manual absolute. -/
def setAbs (t : PanTiltTracker) (panDeg tiltDeg : ExtRat) : PanTiltTracker :=
  { t with
    pan := clamp panDeg t.p.panMin t.p.panMax
    tilt := clamp tiltDeg t.p.tiltMin t.p.tiltMax }

def home (t : PanTiltTracker) : PanTiltTracker :=
  { t with pan := t.p.panHome, tilt := t.p.tiltHome }

end PanTiltTracker

/-! ## Limits -/

/-- The bounds of an axis lie in order inside [0, 180], with the home position
between them. -/
structure AxisLimits (lo home hi : ExtRat) : Prop where
  zero_le : le (.fin 0) lo = true
  lo_le : le lo home = true
  le_hi : le home hi = true
  le_180 : le hi (.fin 180) = true

/-- What is assumed of the tracker's configuration. -/
structure TrackerParams.Valid (p : TrackerParams) : Prop where
  pan : AxisLimits p.panMin p.panHome p.panMax
  tilt : AxisLimits p.tiltMin p.tiltHome p.tiltMax
  step : le (.fin 0) p.maxStepDeg = true

/-- An angle within the bounds of its axis. -/
def InRange (lo hi v : ExtRat) : Prop := le lo v = true ∧ le v hi = true

instance (lo hi v : ExtRat) : Decidable (InRange lo hi v) :=
  inferInstanceAs (Decidable (_ ∧ _))

/-- A pair of angles within the limits. -/
def TrackerParams.Allows (p : TrackerParams) (pan tilt : ExtRat) : Prop :=
  InRange p.panMin p.panMax pan ∧ InRange p.tiltMin p.tiltMax tilt

instance (p : TrackerParams) (pan tilt : ExtRat) : Decidable (p.Allows pan tilt) :=
  inferInstanceAs (Decidable (_ ∧ _))

namespace AxisLimits

variable {lo home hi v : ExtRat}

theorem ordered (h : AxisLimits lo home hi) : le lo hi = true := le_trans h.lo_le h.le_hi

/-- An angle in range is a number from 0 to 180. -/
theorem exists_fin (h : AxisLimits lo home hi) (hv : InRange lo hi v) :
    ∃ q, v = .fin q ∧ 0 ≤ q ∧ q ≤ 180 :=
  exists_fin_of_le (le_trans h.zero_le hv.1) (le_trans hv.2 h.le_180)

theorem clamp_inRange (h : AxisLimits lo home hi) (hv : v ≠ .nan) : InRange lo hi (clamp v lo hi) :=
  clamp_mem h.ordered hv

/-- An angle in range moved by anything but NaN stays in range. -/
theorem move_inRange (h : AxisLimits lo home hi) (hv : InRange lo hi v) {d : ExtRat}
    (hd : d ≠ .nan) : InRange lo hi (clamp (v.add d) lo hi) := by
  obtain ⟨q, rfl, -, -⟩ := h.exists_fin hv
  exact h.clamp_inRange (fin_add_ne_nan q hd)

end AxisLimits

/-! ## The proportional term -/

/-- When `sign * gain * err` is a number: both factors are, and no infinite
one meets a zero. -/
def GainFits (sign gain err : ExtRat) : Prop :=
  sign ≠ .nan ∧ gain ≠ .nan ∧
    (sign.isInf = true ∨ gain.isInf = true → sign ≠ .fin 0 ∧ gain ≠ .fin 0 ∧ err ≠ .fin 0)

/-- The error counts as movement and the gain fits it. -/
def AxisFits (deadzonePx : Int) (sign gain err : ExtRat) : Prop :=
  lt (ofInt deadzonePx) err.abs = true → GainFits sign gain err

instance (deadzonePx : Int) (sign gain err : ExtRat) :
    Decidable (AxisFits deadzonePx sign gain err) :=
  inferInstanceAs (Decidable (_ → _ ∧ _ ∧ (_ ∨ _ → _ ∧ _ ∧ _)))

/-- Neither axis of a snapshot meets a gain that does not fit. A snapshot the
tracker does not follow is of no matter. -/
def TrackerParams.Fits (p : TrackerParams) (s : Snapshot) : Prop :=
  s.found = true → 0 < s.frameW → 0 < s.frameH →
    AxisFits p.deadzonePx p.panSign p.gainPan (PanTiltTracker.offset s.center.x s.frameW) ∧
      AxisFits p.deadzonePx p.tiltSign p.gainTilt (PanTiltTracker.offset s.center.y s.frameH)

instance (p : TrackerParams) (s : Snapshot) : Decidable (p.Fits s) :=
  inferInstanceAs (Decidable (_ → _ → _ → _ ∧ _))

namespace PanTiltTracker

/-- The error is a rational, so only the sign and the gain can spoil the term. -/
theorem correction_ne_nan {deadzonePx : Int} {sign gain : ExtRat} {err : ℚ}
    (h : AxisFits deadzonePx sign gain (.fin err)) :
    correction deadzonePx sign gain (.fin err) ≠ .nan := by
  unfold correction
  split
  · rename_i hmove
    obtain ⟨hs, hg, hinf⟩ := h hmove
    have hsg : sign.mul gain ≠ .nan :=
      mul_ne_nan hs hg fun hi => ⟨(hinf hi).1, (hinf hi).2.1⟩
    refine mul_ne_nan hsg (by simp) ?_
    rintro (hi | hi)
    · exact ⟨fun h0 => by simp [h0, isInf] at hi, (hinf (isInf_mul hi)).2.2⟩
    · cases hi
  · simp

/-! ## The updates stay within the limits -/

/-- The tracker's angles are within its limits. -/
def Within (t : PanTiltTracker) : Prop := t.p.Allows t.pan t.tilt

variable {t : PanTiltTracker}

theorem home_within (h : t.p.Valid) : t.home.Within :=
  ⟨⟨h.pan.lo_le, h.pan.le_hi⟩, h.tilt.lo_le, h.tilt.le_hi⟩

theorem create_within {p : TrackerParams} (h : p.Valid) : (create p).Within :=
  home_within (t := create p) h

theorem setAbs_within (h : t.p.Valid) {pan tilt : ExtRat} (hpan : pan ≠ .nan)
    (htilt : tilt ≠ .nan) : (t.setAbs pan tilt).Within :=
  ⟨h.pan.clamp_inRange hpan, h.tilt.clamp_inRange htilt⟩

theorem nudge_within (h : t.p.Valid) (ht : t.Within) {dPan dTilt : ExtRat} (hpan : dPan ≠ .nan)
    (htilt : dTilt ≠ .nan) : (t.nudge dPan dTilt).Within :=
  ⟨h.pan.move_inRange ht.1 hpan, h.tilt.move_inRange ht.2 htilt⟩

theorem updateAuto_within (h : t.p.Valid) (ht : t.Within) {s : Snapshot} (hs : t.p.Fits s) :
    (t.updateAuto s).Within := by
  unfold updateAuto
  split
  · exact ht
  · rename_i hfollow
    simp only [Bool.or_eq_true, Bool.not_eq_true', decide_eq_true_eq, not_or, Bool.not_eq_false,
      not_le] at hfollow
    obtain ⟨hpan, htilt⟩ := hs hfollow.1.1 hfollow.1.2 hfollow.2
    have hclamp : ∀ {d : ExtRat}, d ≠ .nan → clamp d t.p.maxStepDeg.neg t.p.maxStepDeg ≠ .nan :=
      fun hd => ne_nan_of_le_right (clamp_mem (neg_le_self h.step) hd).1
    exact ⟨h.pan.move_inRange ht.1 (hclamp (correction_ne_nan hpan)),
      h.tilt.move_inRange ht.2 (hclamp (correction_ne_nan htilt))⟩

@[simp] theorem updateAuto_p (s : Snapshot) : (t.updateAuto s).p = t.p := by
  unfold updateAuto
  split <;> rfl

end PanTiltTracker

end FaceTracking
