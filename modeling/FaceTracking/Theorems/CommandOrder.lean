import FaceTracking.Theorems.MechanicalLimits

/-!
# Commands reach the loop once and in order

Any number of sessions push commands while the loop takes them off, one lock
at a time. What was pushed is what was applied and what is still queued
(`pushed_eq`), so the loop applies each command at most once and in the order
of the pushes, and when it finds the queue empty it has applied all of them
(`commands_in_order`). As long as auto-tracking does not act, the tracker is
the fold of what was applied (`tracker_eq_fold`).
-/

namespace FaceTracking.ControlLoop

open Lib Proto

/-! ## Steps of many sessions -/

/-- A step of one of the parties. A message is handled by one of the sessions,
which is in whatever state it has come to. -/
inductive Step (ι κ : Type) where
  | dispatch (i : ι) (session : ClientSession κ CommandQueue) (type : UInt16) (body : Bytes)
  | detect (s : Snapshot)
  | tick
  | pop (now : UInt64)
  | drained
  | act (now : UInt64)

namespace Step

variable {ι κ : Type}

def event : Step ι κ → Event κ
  | dispatch _ session type body => .message session type body
  | detect s => .detect s
  | tick => .tick
  | pop now => .pop now
  | drained => .drained
  | act now => .act now

/-- The command a session dispatches with a step. -/
def pushed : Step ι κ → List (ι × Command)
  | dispatch i _ type body => (commandOf type body).toList.map (i, ·)
  | _ => []

end Step

variable {φ κ ι : Type} (W : World κ) (S : Sysfs φ) (manualOverrideMs : Int32)

def partyStep (s : ControlLoop φ) (e : Step ι κ) : Option (ControlLoop φ) :=
  step W S manualOverrideMs s e.event

/-- Every command dispatched, in the order of the pushes, with its session. -/
def pushes (steps : List (Step ι κ)) : List (ι × Command) := steps.flatMap Step.pushed

/-- The commands among them that one session dispatched. -/
def ofSession [DecidableEq ι] (i : ι) (pushed : List (ι × Command)) : List Command :=
  (pushed.filter fun c => c.1 = i).map Prod.snd

/-- What a step takes off the queue to be applied. -/
def taken (s : ControlLoop φ) : Step ι κ → List Command
  | .pop _ => s.queue.head?.toList
  | _ => []

/-- The commands applied in a run, in order. -/
def applied (s : ControlLoop φ) (steps : List (Step ι κ)) : List Command :=
  outputs (partyStep W S manualOverrideMs) taken s steps

/-- Auto-tracking is not in effect where the thread acts. -/
def Manual (s : ControlLoop φ) : Step ι κ → Prop
  | .act now => s.thread.effectiveAuto now = false
  | _ => True

/-! ## The queue -/

variable {W S manualOverrideMs} {s s' : ControlLoop φ} {steps : List (Step ι κ)}

/-- A command goes in at the back, another one comes out at the front. -/
theorem step_queue {e : Step ι κ} (h : partyStep W S manualOverrideMs s e = some s') :
    s.queue ++ e.pushed.map Prod.snd = taken s e ++ s'.queue := by
  cases e with
  | dispatch i session type body =>
    obtain ⟨-, rfl⟩ := step_message h
    simp [Step.pushed, taken, Function.comp_def]
  | detect snapshot =>
    obtain rfl := step_detect h
    simp [Step.pushed, taken]
  | tick =>
    obtain ⟨-, rfl⟩ := step_tick h
    simp [Step.pushed, taken]
  | pop now =>
    obtain ⟨-, c, q, hq, rfl⟩ := step_pop h
    simp [Step.pushed, taken, hq]
  | drained =>
    obtain ⟨-, -, rfl⟩ := step_drained h
    simp [Step.pushed, taken]
  | act now =>
    obtain ⟨-, rfl⟩ := step_act h
    simp [Step.pushed, taken]

/-- What was pushed is what was applied and what is queued. -/
theorem pushed_eq (hempty : s.queue = [])
    (hplay : play (partyStep W S manualOverrideMs) s steps = some s') :
    (pushes steps).map Prod.snd = applied W S manualOverrideMs s steps ++ s'.queue := by
  have h : s.queue ++ steps.flatMap (fun e => e.pushed.map Prod.snd) =
      applied W S manualOverrideMs s steps ++ s'.queue :=
    fifo (partyStep W S manualOverrideMs) (fun _ _ _ => step_queue) hplay
  rw [hempty, List.nil_append] at h
  rw [← h, pushes, List.map_flatMap]

/-! ## The tracker -/

/-- Without auto-tracking the tracker moves by what is applied. -/
theorem step_tracker {e : Step ι κ} (he : Manual s e)
    (h : partyStep W S manualOverrideMs s e = some s') :
    s'.thread.tracker = (taken s e).foldl PanTiltTracker.manual s.thread.tracker := by
  cases e with
  | dispatch i session type body =>
    obtain ⟨-, rfl⟩ := step_message h
    rfl
  | detect snapshot =>
    obtain rfl := step_detect h
    rfl
  | tick =>
    obtain ⟨-, rfl⟩ := step_tick h
    rfl
  | pop now =>
    obtain ⟨-, c, q, hq, rfl⟩ := step_pop h
    simp only [taken, hq, List.head?_cons, Option.toList_some, List.foldl_cons, List.foldl_nil]
    exact BusinessThread.apply_tracker _ _ _ _
  | drained =>
    obtain ⟨-, -, rfl⟩ := step_drained h
    rfl
  | act now =>
    obtain ⟨-, rfl⟩ := step_act h
    have hmanual : s.thread.effectiveAuto now = false := he
    simp only [taken, BusinessThread.act, hmanual, List.foldl_nil]
    rfl

/-- Without auto-tracking the tracker is where the applied commands take it, in
their order. -/
theorem tracker_eq_fold (hmanual : Throughout (partyStep W S manualOverrideMs) Manual s steps)
    (hplay : play (partyStep W S manualOverrideMs) s steps = some s') :
    s'.thread.tracker =
      (applied W S manualOverrideMs s steps).foldl PanTiltTracker.manual s.thread.tracker :=
  replay _ (fun _ _ _ => step_tracker) hmanual hplay

/-- Between its last look at the queue and its action the loop applies nothing. -/
theorem deciding_idle {between : List (Step ι κ)} (hphase : s.phase = .deciding)
    (hnoact : ∀ now, .act now ∉ between)
    (hplay : play (partyStep W S manualOverrideMs) s between = some s') :
    s'.phase = .deciding ∧ applied W S manualOverrideMs s between = [] := by
  induction between generalizing s with
  | nil =>
    cases hplay
    exact ⟨hphase, rfl⟩
  | cons e between ih =>
    obtain ⟨t, ht, hrest⟩ := play_cons _ hplay
    have hnoact' : ∀ now, Step.act now ∉ between :=
      fun now h => hnoact now (List.mem_cons_of_mem _ h)
    have hstill : t.phase = .deciding ∧ taken s e = [] := by
      cases e with
      | dispatch i session type body =>
        obtain ⟨-, rfl⟩ := step_message ht
        exact ⟨hphase, rfl⟩
      | detect snapshot =>
        obtain rfl := step_detect ht
        exact ⟨hphase, rfl⟩
      | tick => cases hphase.symm.trans (step_tick ht).1
      | pop now => cases hphase.symm.trans (step_pop ht).1
      | drained => cases hphase.symm.trans (step_drained ht).1
      | act now => exact absurd List.mem_cons_self (hnoact now)
    obtain ⟨hphase', happlied⟩ := ih hstill.1 hnoact' hrest
    refine ⟨hphase', ?_⟩
    rw [applied, outputs_cons _ ht, hstill.2]
    exact happlied

/-- Where the loop finds the queue empty it has applied all that was pushed. -/
theorem applied_drained {before : List (Step ι κ)} (hempty : s.queue = [])
    (hplay : play (partyStep W S manualOverrideMs) s (before ++ [Step.drained]) = some s') :
    applied W S manualOverrideMs s (before ++ [Step.drained]) = (pushes before).map Prod.snd ∧
      s'.phase = .deciding := by
  obtain ⟨u, hu, hlast⟩ := play_split _ hplay
  obtain ⟨t, ht, hnil⟩ := play_cons _ hlast
  obtain ⟨-, hnone, rfl⟩ := step_drained ht
  cases hnil
  have happlied := pushed_eq hempty hu
  rw [hnone, List.append_nil] at happlied
  refine ⟨?_, rfl⟩
  rw [applied, outputs_append _ hu, outputs_cons _ ht, happlied]
  exact List.append_nil _

/-- The tracker that the loop then acts on is the fold of all that was pushed.
-/
theorem tracker_deciding {before between : List (Step ι κ)} (hempty : s.queue = [])
    (hplay : play (partyStep W S manualOverrideMs) s (before ++ [Step.drained] ++ between) = some s')
    (hnoact : ∀ now, .act now ∉ between)
    (hmanual : Throughout (partyStep W S manualOverrideMs) Manual s
      (before ++ [Step.drained] ++ between)) :
    s'.thread.tracker =
      ((pushes before).map Prod.snd).foldl PanTiltTracker.manual s.thread.tracker := by
  obtain ⟨t, ht, hbetween⟩ := play_split _ hplay
  obtain ⟨hall, hphase⟩ := applied_drained hempty ht
  obtain ⟨-, hidle⟩ := deciding_idle hphase hnoact hbetween
  have happlied : applied W S manualOverrideMs s (before ++ [Step.drained] ++ between) =
      (pushes before).map Prod.snd := by
    rw [applied, outputs_append _ ht]
    exact (congrArg₂ (· ++ ·) hall hidle).trans (List.append_nil _)
  rw [tracker_eq_fold hmanual hplay, happlied]

/-! ## Main result -/

/-- The limits and the home position are rational. -/
def RationalLimits (pan tilt : Limits) (x y : ℚ) (p : TrackerParams) : Prop :=
  PanTiltTracker.ExactManual pan tilt (.create p) x y

/-- **Commands, once and in order.** In every run of any number of sessions
with the loop: what was applied is the beginning of what was pushed, in the
order of the pushes, and of what each session dispatched, in its own order;
where the loop finds the queue empty all of it was applied; and as long as
auto-tracking is off the angles then sent are the fold, in exact arithmetic,
of everything pushed before that. -/
theorem commands_in_order [DecidableEq ι] (p : TrackerParams) (servo : ServoController φ)
    (hplay : play (partyStep W S manualOverrideMs) (initial S p servo) steps = some s) :
    let log := applied W S manualOverrideMs (initial S p servo) steps
    let first := (pushes steps).take log.length
    (log = first.map Prod.snd ∧ ∀ i, ofSession i first <+: ofSession i (pushes steps)) ∧
    (∀ before, steps = before ++ [.drained] → log = (pushes before).map Prod.snd) ∧
    ∀ before between now, steps = before ++ [.drained] ++ between ++ [.act now] →
      (∀ now, .act now ∉ between) →
      Throughout (partyStep W S manualOverrideMs) Manual (initial S p servo) steps →
      ∀ (pan tilt : Limits) (x y : ℚ), RationalLimits pan tilt x y p →
        (∀ c ∈ pushes before, c.2.Rational) →
        let commands := (pushes before).map Prod.snd
        s.thread.angles.getLast? = some
          (.fin (commands.foldl (pan.manual Command.pan) x),
            .fin (commands.foldl (tilt.manual Command.tilt) y)) := by
  intro log first
  have hpushed : (pushes steps).map Prod.snd = log ++ s.queue := pushed_eq rfl hplay
  refine ⟨⟨?_, fun i => ?_⟩, ?_, ?_⟩
  · have htake := congrArg (List.take log.length) hpushed
    rw [List.take_left, ← List.map_take] at htake
    exact htake.symm
  · exact ((List.take_prefix _ _).filter _).map _
  · rintro before rfl
    exact (applied_drained rfl hplay).1
  · rintro before between now rfl hnoact hmanual pan tilt x y hlimits hrational commands
    obtain ⟨u, hu, hact⟩ := play_split _ hplay
    obtain ⟨s', hs', hnil⟩ := play_cons _ hact
    cases hnil
    have htracker : u.thread.tracker = commands.foldl PanTiltTracker.manual (.create p) :=
      tracker_deciding rfl hu hnoact (Throughout.append_left _ hmanual)
    have hcommands : ∀ c ∈ commands, c.Rational := by
      intro c hc
      obtain ⟨d, hd, rfl⟩ := List.mem_map.mp hc
      exact hrational d hd
    have hexact := PanTiltTracker.manuals_exact hcommands hlimits
    rw [← htracker] at hexact
    have hoff : u.thread.effectiveAuto now = false := (Throughout.append_right _ hmanual hu).1
    obtain ⟨-, rfl⟩ := step_act hs'
    simp only [BusinessThread.act, hoff, List.getLast?_concat]
    exact congrArg some (Prod.ext hexact.pan_eq hexact.tilt_eq)

instance (s : ControlLoop φ) (e : Step ι κ) : Decidable (Manual s e) :=
  match e with
  | .act now => inferInstanceAs (Decidable (s.thread.effectiveAuto now = false))
  | .dispatch _ _ _ _ | .detect _ | .tick | .pop _ | .drained => .isTrue trivial

/-- Two sessions; the second command of the first one arrives during the drain. -/
def drainRun : List (Step Nat (Socket × List PollResult)) :=
  [.dispatch 0 openSession MsgType.ModeCmd.code (utf8 "\x7B\"autoTrack\":false\x7D"), .tick,
    .dispatch 1 openSession MsgType.ServoCmd.code (utf8 "\x7B\"pan\":5\x7D"), .pop 1000,
    .dispatch 0 openSession MsgType.ServoCmd.code (utf8 "\x7B\"pan\":-2,\"tilt\":60\x7D"),
    .pop 1000, .pop 1000]

theorem commands_in_order_two :
    ∃ s, play (partyStep plainWorld workingSysfs 4000) configured
        (drainRun ++ [.drained] ++ [] ++ [.act 1000]) = some s ∧
      s.thread.angles.getLast? = some (.fin 93, .fin 140) := by
  have hsome : (play (partyStep plainWorld workingSysfs 4000) configured
      (drainRun ++ [.drained] ++ [] ++ [.act 1000])).isSome = true := by decide +kernel
  obtain ⟨s, hplay⟩ := Option.isSome_iff_exists.mp hsome
  obtain ⟨-, -, hangles⟩ := commands_in_order .default (.default ()) hplay
  have hmanual : Throughout (partyStep plainWorld workingSysfs 4000) Manual configured
      (drainRun ++ [.drained] ++ [] ++ [.act 1000]) := by decide +kernel
  have hrational : ∀ c ∈ pushes drainRun, c.2.Rational := by decide +kernel
  have hlast := hangles drainRun [] 1000 rfl nofun hmanual ⟨10, 170, by norm_num⟩
    ⟨40, 140, by norm_num⟩ 90 90 ⟨rfl, rfl, rfl, rfl, rfl, rfl⟩ hrational
  exact ⟨s, hplay, hlast.trans (by decide +kernel)⟩

end FaceTracking.ControlLoop
