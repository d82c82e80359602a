import Mathlib.Data.List.DropRight
import FaceTracking.App.BusinessThread
import FaceTracking.Core.Time

/-!
# Manual override and mode

The loop keeps a mode and the end of the manual override. Both are a function
of the commands applied so far (`Recalls`): the mode is the last one set, and
the override began with the latest servo command since auto-tracking was last
switched on. From this `manual_override` reads off when an iteration tracks,
which angles it sends, and what it publishes. A run of the whole machine is a
run of the loop (`thread_eq_run`).
-/

namespace FaceTracking

open Lib

namespace BusinessThread

/-! ## The history of commands -/

/-- Commands applied, oldest first, each with the reading taken for it. -/
abbrev History := List (UInt64 × Command)

/-- The commands drained by some iterations. -/
def history (ticks : List Tick) : History := ticks.flatMap Tick.drained

/-- Does the command switch auto-tracking on? -/
def resumes (c : Command) : Bool := c.type = .SetMode && c.autoTrack

/-- The last SetMode. -/
def lastMode (h : History) : Option Command :=
  ((h.map Prod.snd).filter fun c => c.type = .SetMode).getLast?

/-- What came after the last SetMode(true). -/
def sinceResume (h : History) : History := h.rtakeWhile fun x => !resumes x.2

/-- The reading of the latest servo command since the last SetMode(true). -/
def overrideStart (h : History) : Option UInt64 :=
  (((sinceResume h).filter fun x => x.2.type ≠ .SetMode).map Prod.fst).getLast?

/-- When auto-tracking is to be in effect. -/
def Automatic (manualOverrideMs : Int32) (h : History) (t : UInt64) : Prop :=
  (∀ c ∈ lastMode h, c.autoTrack = true) ∧
    ∀ u ∈ overrideStart h, u.toNat + manualOverrideMs.toInt ≤ t.toNat

theorem lastMode_servo (h : History) (u : UInt64) {c : Command} (hc : c.type ≠ .SetMode) :
    lastMode (h ++ [(u, c)]) = lastMode h := by
  unfold lastMode
  rw [List.map_append, List.filter_append, List.map_cons, List.map_nil,
    List.filter_cons_of_neg (by simpa using hc), List.filter_nil, List.append_nil]

theorem lastMode_mode (h : History) (u : UInt64) {c : Command} (hc : c.type = .SetMode) :
    lastMode (h ++ [(u, c)]) = some c := by
  unfold lastMode
  rw [List.map_append, List.filter_append, List.map_cons, List.map_nil,
    List.filter_cons_of_pos (by simpa using hc), List.filter_nil, List.getLast?_concat]

theorem overrideStart_servo (h : History) (u : UInt64) {c : Command} (hc : c.type ≠ .SetMode) :
    overrideStart (h ++ [(u, c)]) = some u := by
  have hkept : (!resumes c) = true := by simp [resumes, hc]
  unfold overrideStart sinceResume
  rw [List.rtakeWhile_concat, if_pos hkept, List.filter_append, List.map_append,
    List.filter_cons_of_pos (by simpa using hc), List.filter_nil, List.map_cons, List.map_nil,
    List.getLast?_concat]

theorem overrideStart_on (h : History) (u : UInt64) {c : Command} (hc : c.type = .SetMode)
    (hauto : c.autoTrack = true) : overrideStart (h ++ [(u, c)]) = none := by
  have hcut : ¬ (!resumes c) = true := by simp [resumes, hc, hauto]
  unfold overrideStart sinceResume
  rw [List.rtakeWhile_concat, if_neg hcut]
  rfl

/-- Switching off leaves an override alone. -/
theorem overrideStart_off (h : History) (u : UInt64) {c : Command} (hc : c.type = .SetMode)
    (hauto : c.autoTrack = false) : overrideStart (h ++ [(u, c)]) = overrideStart h := by
  have hkept : (!resumes c) = true := by simp [resumes, hauto]
  unfold overrideStart sinceResume
  rw [List.rtakeWhile_concat, if_pos hkept, List.filter_append, List.map_append,
    List.filter_cons_of_neg (by simpa using hc), List.filter_nil, List.map_nil, List.append_nil]

/-! ## What the loop's variables recall -/

variable {φ : Type} (S : Sysfs φ) (manualOverrideMs : Int32)

/-- The two variables, as functions of the history. -/
structure Recalls (h : History) (b : BusinessThread φ) : Prop where
  mode : b.autoEnabled = (lastMode h).elim true Command.autoTrack
  override : b.manualUntil = (overrideStart h).elim 0 (overrideUntil manualOverrideMs)

variable {manualOverrideMs}

/-- Applying a command adds it to the history that the thread recalls. -/
theorem apply_recalls {h : History} {b : BusinessThread φ} (hb : Recalls manualOverrideMs h b)
    (u : UInt64) (c : Command) :
    Recalls manualOverrideMs (h ++ [(u, c)]) (b.apply manualOverrideMs u c) := by
  obtain ⟨hmode, hoverride⟩ := hb
  unfold apply
  cases hc : c.type with
  | ServoStep =>
    have hservo : c.type ≠ .SetMode := by simp [hc]
    exact ⟨(lastMode_servo h u hservo).symm ▸ hmode, by rw [overrideStart_servo h u hservo]; rfl⟩
  | ServoAbs =>
    have hservo : c.type ≠ .SetMode := by simp [hc]
    exact ⟨(lastMode_servo h u hservo).symm ▸ hmode, by rw [overrideStart_servo h u hservo]; rfl⟩
  | SetMode =>
    refine ⟨by rw [lastMode_mode h u hc]; rfl, ?_⟩
    cases hauto : c.autoTrack with
    | true =>
      rw [overrideStart_on h u hc hauto]
      rfl
    | false =>
      rw [overrideStart_off h u hc hauto]
      exact hoverride

theorem drain_recalls {h : History} {b : BusinessThread φ} (hb : Recalls manualOverrideMs h b)
    (cs : List (UInt64 × Command)) :
    Recalls manualOverrideMs (h ++ cs) (b.drain manualOverrideMs cs) := by
  induction cs generalizing h b with
  | nil =>
    rw [List.append_nil]
    exact hb
  | cons c cs ih =>
    have := ih (apply_recalls hb c.1 c.2)
    rwa [List.append_assoc] at this

theorem run_recalls {h : History} {b : BusinessThread φ} (hb : Recalls manualOverrideMs h b)
    (ticks : List Tick) :
    Recalls manualOverrideMs (h ++ history ticks) (b.run S manualOverrideMs ticks) := by
  induction ticks generalizing h b with
  | nil =>
    simp only [history, List.flatMap_nil, List.append_nil]
    exact hb
  | cons k ticks ih =>
    have hdrain := drain_recalls hb k.drained
    -- acting leaves both variables alone
    have := ih (b := b.tick S manualOverrideMs k) ⟨hdrain.mode, hdrain.override⟩
    rwa [List.append_assoc] at this

theorem create_recalls (p : TrackerParams) (servo : ServoController φ) :
    Recalls manualOverrideMs [] (create S p servo) :=
  ⟨rfl, rfl⟩

/-! ## Deciding -/

/-- The end of an override does not wrap around. -/
theorem overrideUntil_toNat (hm : 0 ≤ manualOverrideMs.toInt) {u : UInt64} (hu : IsReading u) :
    ((overrideUntil manualOverrideMs u).toNat : ℤ) = u.toNat + manualOverrideMs.toInt := by
  have hwide : manualOverrideMs.toInt64.toInt = manualOverrideMs.toInt :=
    Int32.toInt_toInt64 manualOverrideMs
  have hnat : manualOverrideMs.toInt64.toUInt64.toNat = manualOverrideMs.toInt.toNat := by
    rw [Int64.toNat_toUInt64_of_le (Int64.le_iff_toInt_le.mpr (by simpa [hwide] using hm)),
      Int64.toNatClampNeg, hwide]
  have hlt := hu.lt
  have hle := manualOverrideMs.toInt_lt
  rw [overrideUntil, UInt64.toNat_add, hnat]
  omega

theorem effectiveAuto_iff (hm : 0 ≤ manualOverrideMs.toInt) {h : History}
    (hclock : ∀ x ∈ h, x.2.type ≠ .SetMode → IsReading x.1) {b : BusinessThread φ}
    (hb : Recalls manualOverrideMs h b) (t : UInt64) :
    b.effectiveAuto t = true ↔ Automatic manualOverrideMs h t := by
  have hmode : b.autoEnabled = true ↔ ∀ c ∈ lastMode h, c.autoTrack = true := by
    rw [hb.mode]
    cases lastMode h <;> simp
  have hover : b.manualUntil ≤ t ↔
      ∀ u ∈ overrideStart h, u.toNat + manualOverrideMs.toInt ≤ t.toNat := by
    rw [hb.override]
    cases hstart : overrideStart h with
    | none => simp
    | some u =>
      have hu : IsReading u := by
        obtain ⟨x, hx, rfl⟩ := List.mem_map.mp (List.mem_of_getLast? hstart)
        obtain ⟨hmem, hservo⟩ := List.mem_filter.mp hx
        exact hclock x ((List.rtakeWhile_suffix _ _).subset hmem) (by simpa using hservo)
      have := overrideUntil_toNat hm hu
      simp only [Option.elim_some, Option.mem_def, Option.some.injEq, forall_eq',
        UInt64.le_iff_toNat_le]
      omega
  unfold effectiveAuto Automatic
  rw [Bool.and_eq_true, hmode, decide_eq_true_eq, ge_iff_le, hover]

/-! ## Angles -/

/-- The last pair sent; home before the first. -/
def lastAngles (p : TrackerParams) (b : BusinessThread φ) : ExtRat × ExtRat :=
  b.angles.getLast?.getD (p.panHome, p.tiltHome)

theorem run_concat (b : BusinessThread φ) (ticks : List Tick) (k : Tick) :
    b.run S manualOverrideMs (ticks ++ [k]) =
      ((b.run S manualOverrideMs ticks).drain manualOverrideMs k.drained).act S k.now k.track :=
  List.foldl_concat ..

theorem lastAngles_act (p : TrackerParams) (b : BusinessThread φ) (now : UInt64)
    (track : Snapshot) : lastAngles p (b.act S now track) =
      ((b.act S now track).tracker.pan, (b.act S now track).tracker.tilt) := by
  simp only [lastAngles, act, List.getLast?_concat, Option.getD_some]

/-- Between iterations the tracker is where the servo was last sent. -/
theorem run_tracker (p : TrackerParams) (servo : ServoController φ) (ticks : List Tick) :
    let b := (create S p servo).run S manualOverrideMs ticks
    b.tracker = ⟨p, (lastAngles p b).1, (lastAngles p b).2⟩ := by
  intro b
  induction ticks using List.reverseRecOn with
  | nil => rfl
  | append_singleton ticks k ih =>
    have hbefore : ((create S p servo).run S manualOverrideMs ticks).tracker.p = p := by
      rw [ih]
    have hp : b.tracker.p = p := by
      simp only [b, run_concat, act]
      split <;> simpa [drain_tracker] using hbefore
    have hlast : lastAngles p b = (b.tracker.pan, b.tracker.tilt) := by
      simp only [b, run_concat, lastAngles_act]
    rw [hlast, ← hp]

/-- **Manual override and mode.** At the last of any iterations: auto-tracking
is in effect just when the history of commands says so; if it is not, the
angles are the manual commands' over the previous ones; and the servo and the
status board are given what was decided. -/
theorem manual_override (hm : 0 ≤ manualOverrideMs.toInt) (p : TrackerParams)
    (servo : ServoController φ) (ticks : List Tick) (k : Tick)
    (hclock : ∀ x ∈ history (ticks ++ [k]), x.2.type ≠ .SetMode → IsReading x.1) :
    let before := (create S p servo).run S manualOverrideMs ticks
    let after := (create S p servo).run S manualOverrideMs (ticks ++ [k])
    let auto := Automatic manualOverrideMs (history (ticks ++ [k])) k.now
    let moved := (k.drained.map Prod.snd).foldl PanTiltTracker.manual
      ⟨p, (lastAngles p before).1, (lastAngles p before).2⟩
    let followed := moved.updateAuto k.track
    (after.status.autoTrack = true ↔ auto) ∧
      (¬ auto → lastAngles p after = (moved.pan, moved.tilt)) ∧
      (auto → lastAngles p after = (followed.pan, followed.tilt)) ∧
      lastAngles p after = (after.status.panAngle, after.status.tiltAngle) ∧
      after.angles = before.angles ++ [lastAngles p after] ∧
      after.servo = before.servo.setAngles S after.status.panAngle after.status.tiltAngle := by
  intro before after auto moved followed
  have hafter : after = (before.drain manualOverrideMs k.drained).act S k.now k.track :=
    run_concat S _ ticks k
  have hmoved : (before.drain manualOverrideMs k.drained).tracker = moved := by
    rw [drain_tracker, run_tracker]
  obtain ⟨hservo, hangles⟩ := drain_kept manualOverrideMs before k.drained
  have hauto : (before.drain manualOverrideMs k.drained).effectiveAuto k.now = true ↔ auto := by
    have hcreate : Recalls manualOverrideMs [] (create S p servo) := create_recalls S p servo
    have hrecalls := drain_recalls (run_recalls S hcreate ticks) k.drained
    have hhistory : [] ++ history ticks ++ k.drained = history (ticks ++ [k]) := by
      simp [history]
    rw [hhistory] at hrecalls
    exact effectiveAuto_iff hm hclock hrecalls k.now
  generalize before.drain manualOverrideMs k.drained = b at hafter hmoved hservo hangles hauto
  have hlast : lastAngles p after = (after.tracker.pan, after.tracker.tilt) := by
    rw [hafter, lastAngles_act]
  have htracker : after.tracker = if b.effectiveAuto k.now then followed else moved := by
    simp only [hafter, act, hmoved, followed]
  refine ⟨?_, fun hno => ?_, fun hyes => ?_, ?_, ?_, ?_⟩
  · simp only [hafter, act]
    exact hauto
  · rw [hlast, htracker, if_neg (mt hauto.mp hno)]
  · rw [hlast, htracker, if_pos (hauto.mpr hyes)]
  · rw [hlast]
    simp only [hafter, act]
  · rw [hlast, ← hangles]
    simp only [hafter, act]
  · rw [← hservo]
    simp only [hafter, act]

/-- After a manual step and, within the override, the mode set to manual, the
gimbal stays. -/
theorem manual_override_held :
    let S : Sysfs Unit := ⟨fun _ _ => (true, ()), fun _ _ _ => (true, ())⟩
    let stepped : Tick := ⟨[(1000, ⟨.ServoStep, .fin 10, .fin 0, true⟩)], 1000, .initial⟩
    let switched : Tick := ⟨[(3000, ⟨.SetMode, .fin 0, .fin 0, false⟩)], 9000, .initial⟩
    let after := (create S .default (.default ())).run S 4000 ([stepped] ++ [switched])
    after.status.autoTrack = false ∧ lastAngles .default after = (.fin 100, .fin 90) := by
  intro S stepped switched after
  have hm : 0 ≤ (4000 : Int32).toInt := by decide
  have h := manual_override S hm .default (.default ()) [stepped] switched (by decide)
  have hmode : lastMode (history ([stepped] ++ [switched])) =
      some ⟨.SetMode, .fin 0, .fin 0, false⟩ := by decide +kernel
  have hmanual : ¬ Automatic 4000 (history ([stepped] ++ [switched])) switched.now := by
    rintro ⟨hauto, -⟩
    cases hauto _ hmode
  obtain ⟨hiff, hangles, -⟩ := h
  exact ⟨Bool.eq_false_iff.mpr (mt hiff.mp hmanual), (hangles hmanual).trans (by decide +kernel)⟩

end BusinessThread

end FaceTracking
