import FaceTracking.App.VisionThread
import FaceTracking.Theorems.MechanicalLimits

/-!
# How far one detection moves the gimbal

The vision thread stores a detection per processed frame, and the servo loop
reads the last one at its own rate, as often as it comes round before the next
frame. So one detection moves the gimbal by up to one clamped step for each
iteration that tracks (`detection_steps`), and by more than one step as soon
as there are two of them, camera or not (`detection_overshoots`).
-/

namespace FaceTracking

open Lib ExtRat

/-! ## One step -/

namespace PanTiltTracker

/-- An angle in range moves by no more than the bound of the clamp. -/
theorem move_le {lo home hi v c : ExtRat} (h : AxisLimits lo home hi) (hv : InRange lo hi v)
    (hc : c ≠ .nan) {q : ℚ} (hq : 0 ≤ q) :
    ∃ a, (clamp (v.add (clamp c (ExtRat.fin q).neg (.fin q))) lo hi).sub v = .fin a ∧ |a| ≤ q := by
  obtain ⟨x, rfl, -, -⟩ := h.exists_fin hv
  obtain ⟨l, rfl, -, -⟩ := exists_fin_of_le h.zero_le (le_trans h.ordered h.le_180)
  obtain ⟨u, rfl, -, -⟩ := exists_fin_of_le (le_trans h.zero_le h.ordered) h.le_180
  have hlu : l ≤ u := by simpa using h.ordered
  have hx : x ∈ Set.Icc l u := by simpa [InRange] using hv
  obtain ⟨hlow, hhigh⟩ := clamp_mem (v := c) (neg_le_self (v := .fin q) (by simpa using hq)) hc
  obtain ⟨d, hd, hd0, hd1⟩ := exists_fin_of_le hlow hhigh
  refine ⟨clampTo l u (x + d) - x, ?_, (abs_clampTo_add_sub_le hx).trans (abs_le.mpr ⟨hd0, hd1⟩)⟩
  rw [hd, add, clamp_fin hlu, sub, neg, add, sub_eq_add_neg]

/-- What a detection changes, axis by axis. -/
def change (t t' : PanTiltTracker) : ExtRat × ExtRat := (t'.pan.sub t.pan, t'.tilt.sub t.tilt)

/-- Both axes change by `q` at most. -/
def Small (q : ℚ) (m : ExtRat × ExtRat) : Prop :=
  (∃ a, m.1 = .fin a ∧ |a| ≤ q) ∧ ∃ b, m.2 = .fin b ∧ |b| ≤ q

variable {t : PanTiltTracker}

theorem change_self (h : t.p.Valid) (ht : t.Within) : t.change t = (.fin 0, .fin 0) := by
  obtain ⟨x, hx, -, -⟩ := h.pan.exists_fin ht.1
  obtain ⟨y, hy, -, -⟩ := h.tilt.exists_fin ht.2
  simp only [change, hx, hy, sub, neg, add, add_neg_cancel]

theorem change_updateAuto (h : t.p.Valid) (ht : t.Within) {q : ℚ} (hq : t.p.maxStepDeg = .fin q)
    {s : Snapshot} (hs : t.p.Fits s) : Small q (t.change (t.updateAuto s)) := by
  have hq0 : 0 ≤ q := by simpa [hq] using h.step
  by_cases hfollow : s.Followed
  · obtain ⟨hpan, htilt⟩ := hs hfollow.1 hfollow.2.1 hfollow.2.2
    have hif : ¬ (!s.found || s.frameW ≤ 0 || s.frameH ≤ 0) = true := by
      simp [hfollow.1, hfollow.2.1, hfollow.2.2]
    unfold change updateAuto
    rw [if_neg hif]
    simp only [hq]
    exact ⟨move_le h.pan ht.1 (correction_ne_nan hpan) hq0,
      move_le h.tilt ht.2 (correction_ne_nan htilt) hq0⟩
  · rw [updateAuto_of_not_followed hfollow, change_self h ht]
    exact ⟨⟨0, rfl, by simpa using hq0⟩, 0, rfl, by simpa using hq0⟩

end PanTiltTracker

/-! ## Totals -/

/-- The net change of an axis over several moves. -/
def total (xs : List ExtRat) : ExtRat := xs.foldr add (.fin 0)

theorem total_le {q : ℚ} {xs : List ExtRat} (h : ∀ x ∈ xs, ∃ a, x = .fin a ∧ |a| ≤ q) :
    le (total xs).abs (.fin (xs.length * q)) = true ∧
      le (total (xs.map ExtRat.abs)) (.fin (xs.length * q)) = true := by
  -- both sums, and the bound for them
  have hsums : ∃ σ τ, total xs = .fin σ ∧ total (xs.map ExtRat.abs) = .fin τ ∧ |σ| ≤ τ ∧
      τ ≤ xs.length * q := by
    induction xs with
    | nil => exact ⟨0, 0, rfl, rfl, by simp, by simp⟩
    | cons x xs ih =>
      obtain ⟨a, rfl, ha⟩ := h _ List.mem_cons_self
      obtain ⟨σ, τ, hσ, hτ, hστ, hbound⟩ := ih fun x hx => h x (List.mem_cons_of_mem _ hx)
      refine ⟨a + σ, |a| + τ, ?_, ?_, ?_, ?_⟩
      · exact (congrArg (add (.fin a)) hσ).trans rfl
      · exact (congrArg (add (.fin |a|)) hτ).trans rfl
      · exact (abs_add_le a σ).trans (by linarith)
      · rw [List.length_cons]
        push_cast
        linarith
  obtain ⟨σ, τ, hσ, hτ, hστ, hbound⟩ := hsums
  rw [hσ, hτ]
  simp only [ExtRat.abs, le_fin, decide_eq_true_eq]
  exact ⟨hστ.trans hbound, hbound⟩

/-! ## Camera and gimbal -/

/-- The vision thread next to the control loop. -/
structure Gimbal (φ : Type) where
  vision : VisionThread
  loop : ControlLoop φ

namespace Gimbal

inductive Turn (κ : Type) where
  | vision (g : Grab)
  | control (e : ControlLoop.Event κ)

variable {φ κ : Type} (cv : OpenCv) (W : World κ) (S : Sysfs φ) (manualOverrideMs : Int32)

/-- Only the vision thread stores detections. -/
def step (s : Gimbal φ) : Turn κ → Option (Gimbal φ)
  | .vision g =>
    let r := s.vision.iterate cv g
    some ⟨r.1, (VisionThread.detections r.2).foldl (fun l d => { l with track := d }) s.loop⟩
  | .control (.detect _) => none
  | .control e => (ControlLoop.step W S manualOverrideMs s.loop e).map fun l => ⟨s.vision, l⟩

def initial (vision : VisionThread) (p : TrackerParams) (servo : ServoController φ) : Gimbal φ :=
  ⟨vision, .initial S p servo⟩

/-- The camera delivers no frame. -/
def Stalled : Turn κ → Prop
  | .vision g => g.frame = none
  | .control _ => True

/-- What auto-tracking changes where it is in effect. -/
def autoMoves (s : Gimbal φ) : Turn κ → List (ExtRat × ExtRat)
  | .control (.act now) =>
    if s.loop.thread.effectiveAuto now then
      [s.loop.thread.tracker.change (s.loop.thread.act S now s.loop.track).tracker]
    else []
  | _ => []

/-- No client sends NaN, and the gains fit the faces followed. -/
def Meets (s : Gimbal φ) : Turn κ → Prop
  | .vision _ => True
  | .control e => ControlLoop.Meets s.loop e

instance (s : Gimbal φ) (e : Turn κ) : Decidable (Meets s e) :=
  match e with
  | .vision _ => .isTrue trivial
  | .control e => inferInstanceAs (Decidable (ControlLoop.Meets s.loop e))

variable {cv W S manualOverrideMs} {p : TrackerParams} {s s' : Gimbal φ}

/-- The detection that is there after an iteration of the vision thread. -/
def seen (track : Snapshot) (g : Grab) : Snapshot :=
  match g.frame with
  | none => track
  | some c => TrackingState.update g.face.isSome (g.face.getD ⟨0, 0, 0, 0⟩) c.cols.toInt c.rows.toInt

theorem step_vision {g : Grab} (h : step cv W S manualOverrideMs s (.vision g : Turn κ) = some s') :
    s' = ⟨(s.vision.iterate cv g).1, { s.loop with track := seen s.loop.track g }⟩ := by
  obtain rfl := Option.some.inj h
  simp only [VisionThread.detections_iterate, seen]
  cases g.frame <;> rfl

theorem step_control {e : ControlLoop.Event κ}
    (h : step cv W S manualOverrideMs s (.control e) = some s') :
    ControlLoop.step W S manualOverrideMs s.loop e = some s'.loop ∧ ∀ d, e ≠ .detect d := by
  have hdetect : ∀ d, e ≠ .detect d := by
    rintro d rfl
    cases h
  have hmap : (ControlLoop.step W S manualOverrideMs s.loop e).map (Gimbal.mk s.vision) = some s' := by
    cases e with
    | detect d => cases h
    | message session type body => exact h
    | tick => exact h
    | pop now => exact h
    | drained => exact h
    | act now => exact h
  obtain ⟨l, hl, rfl⟩ := Option.map_eq_some_iff.mp hmap
  exact ⟨hl, hdetect⟩

theorem step_steady (hp : p.Valid) {e : Turn κ} (h : ControlLoop.Steady p s.loop)
    (he : Meets s e) (hstep : step cv W S manualOverrideMs s e = some s') :
    ControlLoop.Steady p s'.loop := by
  cases e with
  | vision g =>
    obtain rfl := step_vision hstep
    exact ⟨h.params, h.queue, h.within⟩
  | control e => exact ControlLoop.step_steady W S manualOverrideMs hp h he (step_control hstep).1

/-- Where auto-tracking is in effect it changes each axis by one clamped step at
most, and by nothing if the detection is not one to follow. -/
theorem autoMoves_small (hp : p.Valid) {q : ℚ} (hq : p.maxStepDeg = .fin q) {e : Turn κ}
    (h : ControlLoop.Steady p s.loop) (he : Meets s e) :
    ∀ m ∈ autoMoves S s e, PanTiltTracker.Small q m ∧
      (¬ s.loop.track.Followed → m = (.fin 0, .fin 0)) := by
  obtain ⟨rfl, -, hwithin⟩ := h
  unfold autoMoves
  split
  · rename_i now
    split
    · rename_i hauto
      intro m hm
      have htracker : (s.loop.thread.act S now s.loop.track).tracker =
          s.loop.thread.tracker.updateAuto s.loop.track := if_pos hauto
      rw [List.mem_singleton.mp hm, htracker]
      refine ⟨PanTiltTracker.change_updateAuto hp hwithin hq (he hauto), fun hlost => ?_⟩
      rw [PanTiltTracker.updateAuto_of_not_followed hlost, PanTiltTracker.change_self hp hwithin]
    · exact nofun
  · exact nofun

/-- A stalled camera leaves the last detection as it is. -/
theorem step_track {e : Turn κ} (he : Stalled e)
    (hstep : step cv W S manualOverrideMs s e = some s') : s'.loop.track = s.loop.track := by
  cases e with
  | vision g =>
    have hnone : g.frame = none := he
    obtain rfl := step_vision hstep
    simp only [seen, hnone]
  | control e =>
    obtain ⟨hl, hdetect⟩ := step_control hstep
    cases e with
    | detect d => exact absurd rfl (hdetect d)
    | message session type body => rw [(ControlLoop.step_message hl).2]
    | tick => rw [(ControlLoop.step_tick hl).2]
    | pop now =>
      obtain ⟨-, c, q, -, hs'⟩ := ControlLoop.step_pop hl
      rw [hs']
    | drained => rw [(ControlLoop.step_drained hl).2.2]
    | act now => rw [(ControlLoop.step_act hl).2]

/-! ## Main result -/

/-- **Bounded motion.** In every run, between two detections stored: each axis
is moved in total by at most one clamped step for each iteration of the loop
that tracks, counting back and forth, and not at all while the last detection
is not one to follow. -/
theorem detection_steps (hp : p.Valid) {q : ℚ} (hq : p.maxStepDeg = .fin q) (vision : VisionThread)
    (servo : ServoController φ) {before between : List (Turn κ)}
    (hbefore : play (step cv W S manualOverrideMs) (initial S vision p servo) before = some s)
    (hbetween : play (step cv W S manualOverrideMs) s between = some s')
    (hstalled : ∀ e ∈ between, Stalled e)
    (hmeets : Throughout (step cv W S manualOverrideMs) Meets (initial S vision p servo)
      (before ++ between)) :
    let moves := outputs (step cv W S manualOverrideMs) (autoMoves S) s between
    let bound := ExtRat.fin (moves.length * q)
    (le (total (moves.map Prod.fst)).abs bound = true ∧
      le (total (moves.map Prod.snd)).abs bound = true) ∧
    (le (total ((moves.map Prod.fst).map ExtRat.abs)) bound = true ∧
      le (total ((moves.map Prod.snd).map ExtRat.abs)) bound = true) ∧
    (¬ s.loop.track.Followed → ∀ m ∈ moves, m = (.fin 0, .fin 0)) := by
  intro moves bound
  have hsteady : ControlLoop.Steady p s.loop :=
    invariant _ (I := fun s => ControlLoop.Steady p s.loop) (fun _ _ _ => step_steady hp)
      (ControlLoop.initial_steady S hp servo) (Throughout.append_left _ hmeets) hbefore
  have hlater := Throughout.append_right _ hmeets hbefore
  -- the detection stays the one that was there
  let Same (u : Gimbal φ) : Prop := ControlLoop.Steady p u.loop ∧ u.loop.track = s.loop.track
  have hmoves : ∀ m ∈ moves, PanTiltTracker.Small q m ∧
      (¬ s.loop.track.Followed → m = (.fin 0, .fin 0)) := by
    refine outputs_forall _ (I := Same) (P := fun u e => Meets u e ∧ Stalled e) ?_ ⟨hsteady, rfl⟩
      (Throughout.and_mem _ hlater hstalled) hbetween
    rintro u e u' ⟨hu, htrack⟩ ⟨he, hstill⟩ hstep
    refine ⟨⟨step_steady hp hu he hstep, (step_track hstill hstep).trans htrack⟩, ?_⟩
    rw [← htrack]
    exact autoMoves_small hp hq hu he
  have hpan := total_le (q := q) fun x hx => by
    obtain ⟨m, hm, rfl⟩ := List.mem_map.mp hx
    exact (hmoves m hm).1.1
  have htilt := total_le (q := q) fun x hx => by
    obtain ⟨m, hm, rfl⟩ := List.mem_map.mp hx
    exact (hmoves m hm).1.2
  rw [List.length_map] at hpan htilt
  exact ⟨⟨hpan.1, htilt.1⟩, ⟨hpan.2, htilt.2⟩, fun hlost m hm => (hmoves m hm).2 hlost⟩

/-- Drawing and encoding that leave an image as it is. -/
def plainCv : OpenCv := ⟨fun c _ => c.image, fun image _ => image⟩

instance (e : Turn κ) : Decidable (Stalled e) :=
  match e with
  | .vision g => inferInstanceAs (Decidable (g.frame = none))
  | .control _ => .isTrue trivial

/-- A frame with a face right of the middle and above it. -/
def faceSeen : List (Turn (Socket × List PollResult)) :=
  [.vision ⟨some ⟨[], 640, 480⟩, some ⟨570, 70, 60, 60⟩, 990, 995⟩]

/-- Two iterations of the loop while grabbing fails. -/
def twoTicks : List (Turn (Socket × List PollResult)) :=
  [.control .tick, .control .drained, .control (.act 1000), .vision ⟨none, none, 0, 0⟩,
    .control .tick, .control .drained, .control (.act 1020), .vision ⟨none, none, 0, 0⟩]

/-- The terminal with the values of `Config`. -/
def gimbal : Gimbal Unit :=
  initial ControlLoop.workingSysfs (.create 70 false 5000 0) .default (.default ())

abbrev gimbalStep : Gimbal Unit → Turn (Socket × List PollResult) → Option (Gimbal Unit) :=
  step plainCv ControlLoop.plainWorld ControlLoop.workingSysfs 4000

theorem twoTicks_play :
    ∃ s s', play gimbalStep gimbal faceSeen = some s ∧ play gimbalStep s twoTicks = some s' ∧
      outputs gimbalStep (autoMoves ControlLoop.workingSysfs) s twoTicks =
        [(.fin 4, .fin 4), (.fin 4, .fin 4)] := by
  have hrun : ((play gimbalStep gimbal faceSeen).bind fun s => (play gimbalStep s twoTicks).map
      fun _ => outputs gimbalStep (autoMoves ControlLoop.workingSysfs) s twoTicks) =
      some [(.fin 4, .fin 4), (.fin 4, .fin 4)] := by decide +kernel
  obtain ⟨s, hs, hrest⟩ := Option.bind_eq_some_iff.mp hrun
  obtain ⟨s', hs', hmoves⟩ := Option.map_eq_some_iff.mp hrest
  exact ⟨s, s', hs, hs', hmoves⟩

theorem twoTicks_meets : Throughout gimbalStep Meets gimbal (faceSeen ++ twoTicks) := by
  decide +kernel

theorem default_valid : TrackerParams.default.Valid :=
  ⟨⟨by decide +kernel, by decide +kernel, by decide +kernel, by decide +kernel⟩,
    ⟨by decide +kernel, by decide +kernel, by decide +kernel, by decide +kernel⟩, by decide +kernel⟩

theorem detection_steps_twice :
    ∃ s s', play gimbalStep gimbal faceSeen = some s ∧ play gimbalStep s twoTicks = some s' ∧
      let moves := outputs gimbalStep (autoMoves ControlLoop.workingSysfs) s twoTicks
      moves.length = 2 ∧ le (total (moves.map Prod.fst)).abs (.fin (moves.length * 4)) = true := by
  obtain ⟨s, s', hs, hs', hmoves⟩ := twoTicks_play
  have h := detection_steps default_valid rfl (.create 70 false 5000 0) (.default ()) hs hs'
    (by decide +kernel) twoTicks_meets
  exact ⟨s, s', hs, hs', by rw [hmoves]; rfl, h.1.1⟩

/-- **More than one step.** With the values of `Config`, two iterations of the
loop on one detection turn the gimbal by twice the largest step. -/
theorem detection_overshoots :
    ¬ ∀ (before between : List (Turn (Socket × List PollResult))) (s s' : Gimbal Unit),
      play gimbalStep gimbal before = some s → play gimbalStep s between = some s' →
      (∀ e ∈ between, Stalled e) → Throughout gimbalStep Meets gimbal (before ++ between) →
      let moves := outputs gimbalStep (autoMoves ControlLoop.workingSysfs) s between
      le (total (moves.map Prod.fst)).abs TrackerParams.default.maxStepDeg = true ∧
        le (total (moves.map Prod.snd)).abs TrackerParams.default.maxStepDeg = true := by
  intro hall
  obtain ⟨s, s', hs, hs', hmoves⟩ := twoTicks_play
  have h := (hall faceSeen twoTicks s s' hs hs' (by decide +kernel) twoTicks_meets).1
  rw [hmoves] at h
  revert h
  decide +kernel

end Gimbal

end FaceTracking
