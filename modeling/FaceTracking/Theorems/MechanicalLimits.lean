import FaceTracking.App.BusinessThread

/-!
# Mechanical limits

Every pair of angles the business thread gives to the servo, and every duty
cycle computed from them, is within the configured limits, in every
interleaving of clients, detections and loop steps, as long as no NaN gets in
(`mechanical_limits`). NaN gets in through `strtod`: the text `nan` is a
number to it, both comparisons of `std::clamp` are false, and the angle stays
NaN (`nan_escapes`).

A run keeps two things: the commands on the queue are free of NaN, and the
tracker is `Within` its limits.
-/

namespace FaceTracking.ControlLoop

open Lib Proto ExtRat

variable {φ κ : Type} (W : World κ) (S : Sysfs φ) (manualOverrideMs : Int32)

/-! ## What the parties may do -/

/-- Neither number of a SERVO_CMD body reads as NaN. -/
def NumericBody (body : Bytes) : Prop :=
  Mjson.getNumber body (utf8 "pan") ≠ some .nan ∧ Mjson.getNumber body (utf8 "tilt") ≠ some .nan

instance (body : Bytes) : Decidable (NumericBody body) := inferInstanceAs (Decidable (_ ∧ _))

/-- A SERVO_CMD has a numeric body, and where the thread follows a face the
configured gains fit it. -/
def Meets (s : ControlLoop φ) : Event κ → Prop
  | .message _ type body => type = MsgType.ServoCmd.code → NumericBody body
  | .act now => s.thread.effectiveAuto now = true → s.thread.tracker.p.Fits s.track
  | _ => True

instance (s : ControlLoop φ) (e : Event κ) : Decidable (Meets s e) :=
  match e with
  | .message _ type body =>
    inferInstanceAs (Decidable (type = MsgType.ServoCmd.code → NumericBody body))
  | .act now =>
    inferInstanceAs (Decidable (s.thread.effectiveAuto now = true →
      s.thread.tracker.p.Fits s.track))
  | .detect _ | .tick | .pop _ | .drained => .isTrue trivial

/-- The angles given to the servo and the duty cycles computed are in range. -/
def InLimits (p : TrackerParams) (minDutyNs maxDutyNs : Int32) (s : ControlLoop φ) : Prop :=
  (∀ a ∈ s.thread.angles, p.Allows a.1 a.2) ∧
    ∀ d ∈ s.thread.servo.duties, ServoController.DutyOk minDutyNs maxDutyNs d

/-! ## Commands -/

/-- A command without NaN. -/
def Numeric (c : Command) : Prop := c.pan ≠ .nan ∧ c.tilt ≠ .nan

theorem commandOf_numeric {type : UInt16} {body : Bytes}
    (h : type = MsgType.ServoCmd.code → NumericBody body) {c : Command}
    (hc : commandOf type body = some c) : Numeric c := by
  have hfield : ∀ {v : Option ExtRat}, v ≠ some .nan → v.getD (.fin 0) ≠ .nan := by
    intro v hv
    cases v with
    | none => simp
    | some v => simpa using hv
  unfold commandOf at hc
  split at hc
  · rename_i hm
    obtain ⟨hpan, htilt⟩ := h (MsgType.code_of_ofCode hm).symm
    cases hc
    exact ⟨hfield hpan, hfield htilt⟩
  · cases hc
    exact ⟨by simp [ClientSession.modeCommand, Command.default],
      by simp [ClientSession.modeCommand, Command.default]⟩
  · cases hc

/-! ## The invariant -/

/-- No NaN is queued, and the tracker is within its limits. -/
structure Steady (p : TrackerParams) (s : ControlLoop φ) : Prop where
  params : s.thread.tracker.p = p
  queue : ∀ c ∈ s.queue, Numeric c
  within : s.thread.tracker.Within

/-- What every state of a run satisfies. -/
structure Sound (p : TrackerParams) (lo hi : Int32) (s : ControlLoop φ) : Prop where
  params : s.thread.tracker.p = p
  queue : ∀ c ∈ s.queue, Numeric c
  within : s.thread.tracker.Within
  servo : ServoController.Sound lo hi s.thread.servo
  angles : ∀ a ∈ s.thread.angles, p.Allows a.1 a.2

variable {p : TrackerParams} {lo hi : Int32} {s s' : ControlLoop φ}

theorem initial_steady (hp : p.Valid) (servo : ServoController φ) : Steady p (initial S p servo) :=
  ⟨rfl, by simp [initial], PanTiltTracker.create_within hp⟩

theorem initial_sound (hp : p.Valid) {servo : ServoController φ}
    (hservo : ServoController.Sound lo hi servo) : Sound p lo hi (initial S p servo) :=
  ⟨rfl, by simp [initial], PanTiltTracker.create_within hp, hservo.init S,
    by simp [initial, BusinessThread.create]⟩

/-- A numeric command moves the tracker within its limits. -/
theorem apply_within (hp : p.Valid) {b : BusinessThread φ} (hparams : b.tracker.p = p)
    (hb : b.tracker.Within) {c : Command} (hc : Numeric c) (now : UInt64) :
    (b.apply manualOverrideMs now c).tracker.p = p ∧
      (b.apply manualOverrideMs now c).tracker.Within := by
  subst hparams
  unfold BusinessThread.apply
  split
  · exact ⟨rfl, PanTiltTracker.nudge_within hp hb hc.1 hc.2⟩
  · exact ⟨rfl, PanTiltTracker.setAbs_within hp hc.1 hc.2⟩
  · exact ⟨rfl, hb⟩

/-- Acting keeps the tracker within its limits. -/
theorem act_within (hp : p.Valid) {b : BusinessThread φ} {now : UInt64} {track : Snapshot}
    (hparams : b.tracker.p = p) (hb : b.tracker.Within)
    (hfits : b.effectiveAuto now = true → b.tracker.p.Fits track) :
    (b.act S now track).tracker.p = p ∧ (b.act S now track).tracker.Within := by
  subst hparams
  unfold BusinessThread.act
  simp only
  split
  · exact ⟨PanTiltTracker.updateAuto_p track, PanTiltTracker.updateAuto_within hp hb (hfits ‹_›)⟩
  · exact ⟨rfl, hb⟩

/-- Commands and detections keep the tracker within its limits. -/
theorem step_steady (hp : p.Valid) {e : Event κ} (h : Steady p s) (he : Meets s e)
    (hstep : step W S manualOverrideMs s e = some s') : Steady p s' := by
  cases e with
  | message session type body =>
    obtain ⟨-, rfl⟩ := step_message hstep
    refine ⟨h.params, fun c hc => ?_, h.within⟩
    rcases List.mem_append.mp hc with hc | hc
    · exact h.queue c hc
    · exact commandOf_numeric he (Option.mem_toList.mp hc)
  | detect snapshot =>
    obtain rfl := step_detect hstep
    exact ⟨h.params, h.queue, h.within⟩
  | tick =>
    obtain ⟨-, rfl⟩ := step_tick hstep
    exact ⟨h.params, h.queue, h.within⟩
  | pop now =>
    obtain ⟨-, c, q, hq, rfl⟩ := step_pop hstep
    have hc : Numeric c := h.queue c (by simp [hq])
    obtain ⟨hparams, hwithin⟩ := apply_within manualOverrideMs hp h.params h.within hc now
    exact ⟨hparams, fun c hc => h.queue c (by simp [hq, hc]), hwithin⟩
  | drained =>
    obtain ⟨-, -, rfl⟩ := step_drained hstep
    exact ⟨h.params, h.queue, h.within⟩
  | act now =>
    obtain ⟨-, rfl⟩ := step_act hstep
    obtain ⟨hparams, hwithin⟩ := act_within S hp h.params h.within he
    exact ⟨hparams, h.queue, hwithin⟩

/-- The servo is driven to where the tracker is. -/
theorem step_sound (hp : p.Valid) {e : Event κ} (h : Sound p lo hi s) (he : Meets s e)
    (hstep : step W S manualOverrideMs s e = some s') : Sound p lo hi s' := by
  obtain ⟨hparams, hqueue, hwithin⟩ :=
    step_steady W S manualOverrideMs hp ⟨h.params, h.queue, h.within⟩ he hstep
  have hservo : ServoController.Sound lo hi s'.thread.servo ∧
      ∀ a ∈ s'.thread.angles, p.Allows a.1 a.2 := by
    cases e with
    | message session type body =>
      obtain ⟨-, rfl⟩ := step_message hstep
      exact ⟨h.servo, h.angles⟩
    | detect snapshot =>
      obtain rfl := step_detect hstep
      exact ⟨h.servo, h.angles⟩
    | tick =>
      obtain ⟨-, rfl⟩ := step_tick hstep
      exact ⟨h.servo, h.angles⟩
    | pop now =>
      obtain ⟨-, c, q, -, rfl⟩ := step_pop hstep
      obtain ⟨hservo, hangles⟩ := BusinessThread.apply_kept manualOverrideMs s.thread now c
      exact ⟨by rw [hservo]; exact h.servo, by rw [hangles]; exact h.angles⟩
    | drained =>
      obtain ⟨-, -, rfl⟩ := step_drained hstep
      exact ⟨h.servo, h.angles⟩
    | act now =>
      obtain ⟨-, rfl⟩ := step_act hstep
      refine ⟨h.servo.setAngles S (ne_nan_of_le_right hwithin.1.1) (ne_nan_of_le_right hwithin.2.1),
        fun a ha => ?_⟩
      rcases List.mem_append.mp ha with ha | ha
      · exact h.angles a ha
      · rw [List.mem_singleton.mp ha, ← hparams]
        exact hwithin
  exact ⟨hparams, hqueue, hwithin, hservo.1, hservo.2⟩

/-! ## Main result -/

/-- **Mechanical limits.** In every interleaving in which no client sends NaN
and the gains fit the faces followed, the servo is given angles and duty
cycles within the limits only. -/
theorem mechanical_limits (hp : p.Valid) (fs : φ) (chipPath : String)
    (panCh tiltCh periodNs minDutyNs maxDutyNs : Int32)
    (hduty : ServoController.DutyLimits minDutyNs maxDutyNs periodNs) (es : List (Event κ)) :
    let s₀ := initial S p (.create fs chipPath panCh tiltCh periodNs minDutyNs maxDutyNs)
    Throughout (step W S manualOverrideMs) Meets s₀ es →
      ∀ s, play (step W S manualOverrideMs) s₀ es = some s → InLimits p minDutyNs maxDutyNs s := by
  intro s₀ hmeets s hplay
  have hs : Sound p minDutyNs maxDutyNs s :=
    invariant _ (fun _ _ _ h he hstep => step_sound W S manualOverrideMs hp h he hstep)
      (initial_sound S hp (.create hduty)) hmeets hplay
  exact ⟨hs.angles, hs.servo.duties⟩

/-- A PWM chip on which everything succeeds. -/
def workingSysfs : Sysfs Unit := ⟨fun _ _ => (true, ()), fun _ _ _ => (true, ())⟩

def plainWorld : World (Socket × List PollResult) := .of (TcpConn RawByteStream) (schedule 0)

/-- A session without a token. -/
def openSession : ClientSession (Socket × List PollResult) CommandQueue :=
  .create ⟨15, []⟩ (⟨[], [], [], false⟩, []) []

/-- One SERVO_CMD and one iteration of the loop behind it. -/
def servoRun (body : Bytes) : List (Event (Socket × List PollResult)) :=
  [.message openSession MsgType.ServoCmd.code body, .tick, .pop 1000, .drained, .act 1000]

/-- The terminal with the values of `Config`. -/
def configured : ControlLoop Unit := initial workingSysfs .default (.default ())

theorem mechanical_limits_clamped :
    let body := utf8 "\x7B\"pan\":500,\"tilt\":-inf\x7D"
    ∃ s, play (step plainWorld workingSysfs 4000) configured (servoRun body) = some s ∧
      s.thread.angles = [(.fin 170, .fin 40)] ∧ InLimits .default 1000000 2000000 s := by
  intro body
  have hangles : (play (step plainWorld workingSysfs 4000) configured (servoRun body)).map
      (fun s => s.thread.angles) = some [(.fin 170, .fin 40)] := by decide +kernel
  obtain ⟨s, hplay, hs⟩ := Option.map_eq_some_iff.mp hangles
  have hvalid : TrackerParams.default.Valid :=
    ⟨⟨by decide +kernel, by decide +kernel, by decide +kernel, by decide +kernel⟩,
      ⟨by decide +kernel, by decide +kernel, by decide +kernel, by decide +kernel⟩,
      by decide +kernel⟩
  have hmeets : Throughout (step plainWorld workingSysfs 4000) Meets configured (servoRun body) := by
    decide +kernel
  exact ⟨s, hplay, hs, mechanical_limits plainWorld workingSysfs 4000 hvalid ()
    "/sys/class/pwm/pwmchip0" 0 1 20000000 1000000 2000000
    ⟨by decide, by decide, by decide⟩ (servoRun body) hmeets s hplay⟩

/-- The text `nan` in a SERVO_CMD reaches the servo. -/
theorem nan_escapes :
    let body := utf8 "\x7B\"pan\":nan\x7D"
    ¬ ∀ s, play (step plainWorld workingSysfs 4000) configured (servoRun body) = some s →
      InLimits .default 1000000 2000000 s := by
  intro body hall
  have hangles : (play (step plainWorld workingSysfs 4000) configured (servoRun body)).map
      (fun s => s.thread.angles) = some [(.nan, .fin 90)] := by decide +kernel
  obtain ⟨s, hplay, hs⟩ := Option.map_eq_some_iff.mp hangles
  have hin : TrackerParams.default.Allows .nan (.fin 90) :=
    (hall s hplay).1 (.nan, .fin 90) (by simp [hs])
  revert hin
  decide +kernel

end FaceTracking.ControlLoop
