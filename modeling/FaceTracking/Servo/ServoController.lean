import FaceTracking.Lib.ExtRat

/-!
# The servo controller

Two channels of the kernel's PWM sysfs interface. A `long` of the board is 32
bits wide; arithmetic that leaves its range, and the conversion of a double
that does not fit, are undefined behaviour and give `none`. Everything the
controller writes to sysfs is a decimal integer.

`duties` records every duty cycle computed, in order. It is written and never
read.
-/

namespace FaceTracking

open Lib ExtRat

/-- The file system under `/sys/class/pwm`: does a path exist, and the outcome
of writing an integer to a file. The integer is `none` if the program has no
defined value to write. -/
structure Sysfs (φ : Type) where
  stat : φ → String → Bool × φ
  write : φ → String → Option Int → Bool × φ

structure ServoController (φ : Type) where
  fs : φ
  chipPath : String
  panCh : Int32
  tiltCh : Int32
  periodNs : Int32
  minDutyNs : Int32
  maxDutyNs : Int32
  ready : Bool
  duties : List (Option Int)

namespace ServoController

variable {φ : Type} (S : Sysfs φ)

def create (fs : φ) (chipPath : String) (panCh tiltCh periodNs minDutyNs maxDutyNs : Int32) :
    ServoController φ :=
  { fs, chipPath, panCh, tiltCh, periodNs, minDutyNs, maxDutyNs, ready := false, duties := [] }

/-- A controller with the values of `Config`. -/
def default (fs : φ) : ServoController φ :=
  create fs "/sys/class/pwm/pwmchip0" 0 1 20000000 1000000 2000000

/-! ## Duty cycles -/

/-- The value of a `long` expression, if it is in range. -/
def toLong? (n : Int) : Option Int :=
  if Int32.minValue.toInt ≤ n ∧ n ≤ Int32.maxValue.toInt then some n else none

def angleToDutyNs (c : ServoController φ) (angleDeg : ExtRat) : Option Int := do
  let angleDeg := clamp angleDeg (.fin 0) (.fin 180)
  let span ← toLong? (c.maxDutyNs.toInt - c.minDutyNs.toInt)
  let part ← ((angleDeg.divPos 180).mul (ofInt span)).toInt?
    Int32.minValue.toInt Int32.maxValue.toInt
  toLong? (c.minDutyNs.toInt + part)

/-! ## Channels -/

def chanDir (c : ServoController φ) (ch : Int32) : String :=
  c.chipPath ++ "/pwm" ++ toString ch.toInt

def writeStr (c : ServoController φ) (path : String) (value : Option Int) :
    Bool × ServoController φ :=
  let r := S.write c.fs path value
  (r.1, { c with fs := r.2 })

/-- Wait for the channel's directory, which appears asynchronously. -/
def waitFor (dir : String) : Nat → ServoController φ → Bool × ServoController φ
  | 0, c => (false, c)
  | n + 1, c =>
    let r := S.stat c.fs dir
    let c := { c with fs := r.2 }
    if r.1 then (true, c) else waitFor dir n c

def exportChannel (c : ServoController φ) (ch : Int32) : Bool × ServoController φ :=
  let dir := c.chanDir ch
  let r := S.stat c.fs dir
  let c := { c with fs := r.2 }
  if r.1 then (true, c)
  else
    let w := c.writeStr S (c.chipPath ++ "/export") (some ch.toInt)
    if w.1 then w.2.waitFor S dir 20 else (false, w.2)

def setChannelAngle (c : ServoController φ) (ch : Int32) (angleDeg : ExtRat) :
    ServoController φ :=
  let duty := c.angleToDutyNs angleDeg
  ({ c with duties := c.duties ++ [duty] }.writeStr S (c.chanDir ch ++ "/duty_cycle") duty).2

def configChannel (c : ServoController φ) (ch : Int32) : Bool × ServoController φ :=
  let dir := c.chanDir ch
  -- zeroed first so that left-over state cannot make the kernel reject the period
  let c := (c.writeStr S (dir ++ "/duty_cycle") (some 0)).2
  let p := c.writeStr S (dir ++ "/period") (some c.periodNs.toInt)
  if p.1 then (p.2.setChannelAngle S ch (.fin 90)).writeStr S (dir ++ "/enable") (some 1)
  else p

/-- Run the second operation if the first succeeds. -/
def andThen (r : Bool × ServoController φ)
    (f : ServoController φ → Bool × ServoController φ) : Bool × ServoController φ :=
  if r.1 then f r.2 else r

def init (c : ServoController φ) : Bool × ServoController φ :=
  let r := andThen (c.exportChannel S c.panCh) fun c => c.exportChannel S c.tiltCh
  let r := andThen r fun c => c.configChannel S c.panCh
  let r := andThen r fun c => c.configChannel S c.tiltCh
  (r.1, { r.2 with ready := r.2.ready || r.1 })

def setAngles (c : ServoController φ) (panDeg tiltDeg : ExtRat) : ServoController φ :=
  if c.ready then (c.setChannelAngle S c.panCh panDeg).setChannelAngle S c.tiltCh tiltDeg else c

/-- Also what the destructor does. -/
def release (c : ServoController φ) : ServoController φ :=
  if c.ready then
    let c := (c.writeStr S (c.chanDir c.panCh ++ "/enable") (some 0)).2
    let c := (c.writeStr S (c.chanDir c.tiltCh ++ "/enable") (some 0)).2
    { c with ready := false }
  else c

/-! ## Duty cycles in range -/

/-- What is assumed of the controller's configuration. -/
structure DutyLimits (minDutyNs maxDutyNs periodNs : Int32) : Prop where
  zero_le : 0 ≤ minDutyNs.toInt
  min_le : minDutyNs.toInt ≤ maxDutyNs.toInt
  le_period : maxDutyNs.toInt ≤ periodNs.toInt

/-- A defined duty cycle within the configured bounds. -/
def DutyOk (minDutyNs maxDutyNs : Int32) (d : Option Int) : Prop :=
  ∃ n, d = some n ∧ minDutyNs.toInt ≤ n ∧ n ≤ maxDutyNs.toInt

theorem toLong?_eq {n : Int} {x : Int32} (h0 : 0 ≤ n) (h : n ≤ x.toInt) : toLong? n = some n := by
  have hmin : Int32.minValue.toInt ≤ 0 := by decide
  have hmax : x.toInt ≤ Int32.maxValue.toInt := x.toInt_le
  exact if_pos ⟨by omega, by omega⟩

/-- Every number gives a defined duty cycle within the bounds. -/
theorem angleToDutyNs_ok {c : ServoController φ}
    (h : DutyLimits c.minDutyNs c.maxDutyNs c.periodNs) {angle : ExtRat} (ha : angle ≠ .nan) :
    DutyOk c.minDutyNs c.maxDutyNs (c.angleToDutyNs angle) := by
  have hturn : le (.fin 0) (.fin 180) = true := by decide +kernel
  obtain ⟨hlo, hhi⟩ := clamp_mem hturn ha
  obtain ⟨q, hq, hq0, hq180⟩ := exists_fin_of_le hlo hhi
  obtain ⟨h0, hle, -⟩ := h
  have hspan : toLong? (c.maxDutyNs.toInt - c.minDutyNs.toInt) =
      some (c.maxDutyNs.toInt - c.minDutyNs.toInt) :=
    toLong?_eq (x := c.maxDutyNs) (by omega) (by omega)
  set span : Int := c.maxDutyNs.toInt - c.minDutyNs.toInt with hdef
  -- the clamped angle is a fraction of the half turn, so the part is a fraction of the span
  have hspan0 : (0 : ℚ) ≤ span := by exact_mod_cast (by omega : (0 : Int) ≤ span)
  have hpart0 : 0 ≤ q / 180 * span := mul_nonneg (by linarith) hspan0
  have hpart1 : q / 180 * span ≤ span :=
    mul_le_of_le_one_left hspan0 ((div_le_one (by norm_num)).mpr hq180)
  have hmax : span ≤ Int32.maxValue.toInt := by
    have := c.maxDutyNs.toInt_le
    omega
  have hfloor0 : 0 ≤ ⌊q / 180 * span⌋ := Int.floor_nonneg.mpr hpart0
  have hfloor1 : ⌊q / 180 * span⌋ ≤ span := by
    exact_mod_cast (Int.floor_le (q / 180 * (span : ℚ))).trans hpart1
  have htrunc : toInt? Int32.minValue.toInt Int32.maxValue.toInt (.fin (q / 180 * span)) =
      some ⌊q / 180 * span⌋ :=
    toInt?_of_nonneg hpart0 (by decide) (hpart1.trans (by exact_mod_cast hmax))
  refine ⟨c.minDutyNs.toInt + ⌊q / 180 * span⌋, ?_, by omega, by omega⟩
  have hsum : toLong? (c.minDutyNs.toInt + ⌊q / 180 * span⌋) = some _ :=
    toLong?_eq (x := c.maxDutyNs) (by omega) (by omega)
  simp only [angleToDutyNs, ← hdef, hspan, Option.bind_eq_bind, Option.bind_some, hq, divPos, ofInt, mul,
    htrunc, hsum]

/-- A controller with valid bounds whose duty cycles so far are within them. -/
structure Sound (lo hi : Int32) (c : ServoController φ) : Prop where
  min_eq : c.minDutyNs = lo
  max_eq : c.maxDutyNs = hi
  limits : DutyLimits c.minDutyNs c.maxDutyNs c.periodNs
  duties : ∀ d ∈ c.duties, DutyOk lo hi d

namespace Sound

variable {lo hi : Int32} {c : ServoController φ}

theorem create {fs : φ} {chipPath : String} {panCh tiltCh periodNs : Int32}
    (h : DutyLimits lo hi periodNs) :
    Sound lo hi (create fs chipPath panCh tiltCh periodNs lo hi) :=
  ⟨rfl, rfl, h, by simp [ServoController.create]⟩

theorem writeStr (h : Sound lo hi c) (path : String) (value : Option Int) :
    Sound lo hi (c.writeStr S path value).2 :=
  ⟨h.min_eq, h.max_eq, h.limits, h.duties⟩

theorem setChannelAngle (h : Sound lo hi c) (ch : Int32) {angle : ExtRat} (ha : angle ≠ .nan) :
    Sound lo hi (c.setChannelAngle S ch angle) := by
  refine ⟨h.min_eq, h.max_eq, h.limits, fun d hd => ?_⟩
  rcases List.mem_append.mp hd with hd | hd
  · exact h.duties d hd
  · rw [List.mem_singleton.mp hd, ← h.min_eq, ← h.max_eq]
    exact angleToDutyNs_ok h.limits ha

theorem setAngles (h : Sound lo hi c) {pan tilt : ExtRat} (hpan : pan ≠ .nan)
    (htilt : tilt ≠ .nan) : Sound lo hi (c.setAngles S pan tilt) := by
  unfold ServoController.setAngles
  split
  · exact (h.setChannelAngle S _ hpan).setChannelAngle S _ htilt
  · exact h

theorem waitFor (h : Sound lo hi c) (dir : String) (n : Nat) : Sound lo hi (c.waitFor S dir n).2 := by
  induction n generalizing c with
  | zero => exact h
  | succ n ih =>
    have h' : Sound lo hi { c with fs := (S.stat c.fs dir).2 } :=
      ⟨h.min_eq, h.max_eq, h.limits, h.duties⟩
    unfold ServoController.waitFor
    simp only
    split
    · exact h'
    · exact ih h'

theorem exportChannel (h : Sound lo hi c) (ch : Int32) : Sound lo hi (c.exportChannel S ch).2 := by
  have h' : Sound lo hi { c with fs := (S.stat c.fs (c.chanDir ch)).2 } :=
    ⟨h.min_eq, h.max_eq, h.limits, h.duties⟩
  unfold ServoController.exportChannel
  simp only
  split
  · exact h'
  · split
    · exact (h'.writeStr S _ _).waitFor S _ _
    · exact h'.writeStr S _ _

theorem configChannel (h : Sound lo hi c) (ch : Int32) : Sound lo hi (c.configChannel S ch).2 := by
  unfold ServoController.configChannel
  simp only
  split
  · exact (((h.writeStr S _ _).writeStr S _ _).setChannelAngle S _ (by simp)).writeStr S _ _
  · exact (h.writeStr S _ _).writeStr S _ _

theorem andThen {r : Bool × ServoController φ} (h : Sound lo hi r.2)
    {f : ServoController φ → Bool × ServoController φ}
    (hf : ∀ c, Sound lo hi c → Sound lo hi (f c).2) :
    Sound lo hi (andThen r f).2 := by
  unfold ServoController.andThen
  split
  · exact hf _ h
  · exact h

theorem init (h : Sound lo hi c) : Sound lo hi (c.init S).2 := by
  have hr := (((h.exportChannel S c.panCh).andThen fun c hc => hc.exportChannel S c.tiltCh).andThen
    fun c hc => hc.configChannel S c.panCh).andThen fun c hc => hc.configChannel S c.tiltCh
  exact ⟨hr.min_eq, hr.max_eq, hr.limits, hr.duties⟩

end Sound

end ServoController

end FaceTracking
