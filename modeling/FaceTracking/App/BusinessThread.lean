import FaceTracking.Lib.Runs
import FaceTracking.Net.ClientSession
import FaceTracking.Servo.AxisControl
import FaceTracking.Servo.ServoController

/-!
# The business thread

The servo control loop: it drains the client commands, runs auto-tracking when
that is enabled, and writes the resulting angles to the servo. The sessions
and the vision thread work beside it, so `ControlLoop` is a machine whose
events are the steps that a mutex makes atomic: a session handles a message,
the vision thread stores a snapshot, the loop takes one command off the queue,
finds the queue empty, or decides and acts. A list of events is an
interleaving of the three parties; every `nowMs()` of the loop reads whatever
its event says.
-/

namespace FaceTracking

open Lib Proto

/-- The status the loop publishes. -/
structure StatusBoard where
  autoTrack : Bool
  panAngle : ExtRat
  tiltAngle : ExtRat

/-- The loop's variables and what it owns. `angles` records the pairs passed
to `servo_.setAngles`; it is never read. -/
structure BusinessThread (φ : Type) where
  tracker : PanTiltTracker
  servo : ServoController φ
  status : StatusBoard
  autoEnabled : Bool
  manualUntil : UInt64
  angles : List (ExtRat × ExtRat)

namespace BusinessThread

variable {φ : Type} (S : Sysfs φ) (manualOverrideMs : Int32)

/-- The thread as `main` starts it, with an initialised servo. -/
def create (p : TrackerParams) (servo : ServoController φ) : BusinessThread φ where
  tracker := .create p
  servo := (servo.init S).2
  status := ⟨true, .fin 90, .fin 90⟩
  autoEnabled := true
  manualUntil := 0
  angles := []

/-- `nowMs() + manualOverrideMs_`. -/
def overrideUntil (now : UInt64) : UInt64 := now + manualOverrideMs.toInt64.toUInt64

/-- The body of the command loop. -/
def apply (b : BusinessThread φ) (now : UInt64) (c : Command) : BusinessThread φ :=
  match c.type with
  | .ServoStep =>
    { b with
      tracker := b.tracker.nudge c.pan c.tilt
      manualUntil := overrideUntil manualOverrideMs now }
  | .ServoAbs =>
    { b with
      tracker := b.tracker.setAbs c.pan c.tilt
      manualUntil := overrideUntil manualOverrideMs now }
  | .SetMode =>
    { b with
      autoEnabled := c.autoTrack
      -- switching auto-tracking on resumes it immediately
      manualUntil := if c.autoTrack then 0 else b.manualUntil }

def effectiveAuto (b : BusinessThread φ) (now : UInt64) : Bool :=
  b.autoEnabled && now ≥ b.manualUntil

/-- The rest of an iteration. -/
def act (b : BusinessThread φ) (now : UInt64) (track : Snapshot) : BusinessThread φ :=
  let auto := b.effectiveAuto now
  let tracker := if auto then b.tracker.updateAuto track else b.tracker
  { b with
    tracker := tracker
    servo := b.servo.setAngles S tracker.pan tracker.tilt
    status := ⟨auto, tracker.pan, tracker.tilt⟩
    angles := b.angles ++ [(tracker.pan, tracker.tilt)] }

/-- What one iteration meets: the commands it drains, each with the reading
taken for it, the reading it decides with, and the last detection. -/
structure Tick where
  drained : List (UInt64 × Command)
  now : UInt64
  track : Snapshot

/-- The command loop. -/
def drain (b : BusinessThread φ) (cs : List (UInt64 × Command)) : BusinessThread φ :=
  cs.foldl (fun b c => b.apply manualOverrideMs c.1 c.2) b

def tick (b : BusinessThread φ) (k : Tick) : BusinessThread φ :=
  (b.drain manualOverrideMs k.drained).act S k.now k.track

/-- The loop. -/
def run (b : BusinessThread φ) (ticks : List Tick) : BusinessThread φ :=
  ticks.foldl (tick S manualOverrideMs) b

/-! ## What commands change -/

theorem apply_tracker (b : BusinessThread φ) (u : UInt64) (c : Command) :
    (b.apply manualOverrideMs u c).tracker = b.tracker.manual c := by
  unfold apply PanTiltTracker.manual
  cases c.type <;> rfl

theorem drain_tracker (b : BusinessThread φ) (cs : List (UInt64 × Command)) :
    (b.drain manualOverrideMs cs).tracker =
      (cs.map Prod.snd).foldl PanTiltTracker.manual b.tracker := by
  induction cs generalizing b with
  | nil => rfl
  | cons c cs ih => exact (ih _).trans (by rw [apply_tracker]; rfl)

/-- Commands touch neither the servo nor the record. -/
theorem apply_kept (b : BusinessThread φ) (u : UInt64) (c : Command) :
    (b.apply manualOverrideMs u c).servo = b.servo ∧
      (b.apply manualOverrideMs u c).angles = b.angles := by
  unfold apply
  split <;> exact ⟨rfl, rfl⟩

theorem drain_kept (b : BusinessThread φ) (cs : List (UInt64 × Command)) :
    (b.drain manualOverrideMs cs).servo = b.servo ∧
      (b.drain manualOverrideMs cs).angles = b.angles := by
  induction cs generalizing b with
  | nil => exact ⟨rfl, rfl⟩
  | cons c cs ih =>
    obtain ⟨hservo, hangles⟩ := apply_kept manualOverrideMs b c.1 c.2
    obtain ⟨hservo', hangles'⟩ := ih (b.apply manualOverrideMs c.1 c.2)
    exact ⟨hservo'.trans hservo, hangles'.trans hangles⟩

end BusinessThread

/-! ## The loop among its clients -/

/-- What the servo loop shares with a session: the queue. Frames and files are
of no matter to it. -/
def commandShared : Shared CommandQueue where
  latest q := (none, q)
  push := CommandQueue.push
  list q := ([], q)
  read q _ := (none, q)
  remove q _ := (false, q)
  snapshot q _ := q

/-- Where the thread is in its loop. -/
inductive Phase where
  /-- At the loop's head. -/
  | head
  /-- Draining the queue. -/
  | draining
  /-- The queue was empty. -/
  | deciding
deriving DecidableEq

structure ControlLoop (φ : Type) where
  queue : CommandQueue
  track : Snapshot
  phase : Phase
  thread : BusinessThread φ

namespace ControlLoop

inductive Event (κ : Type) where
  /-- A session, authenticated and otherwise in any state, handles a message. -/
  | message (session : ClientSession κ CommandQueue) (type : UInt16) (body : Bytes)
  | detect (s : Snapshot)
  | tick
  | pop (now : UInt64)
  | drained
  | act (now : UInt64)

variable {φ κ : Type} (W : World κ) (S : Sysfs φ) (manualOverrideMs : Int32)

/-- The state in which `main` has started the threads. -/
def initial (p : TrackerParams) (servo : ServoController φ) : ControlLoop φ :=
  ⟨[], .initial, .head, .create S p servo⟩

/-- The queue after a session has handled a message. -/
def afterMessage (q : CommandQueue) (session : ClientSession κ CommandQueue) (type : UInt16)
    (body : Bytes) : CommandQueue :=
  (ClientSession.handleMessage W commandShared { session with shared := q } type body).shared

def step (s : ControlLoop φ) : Event κ → Option (ControlLoop φ)
  | .message session type body =>
    if session.authed then some { s with queue := afterMessage W s.queue session type body }
    else none
  | .detect snapshot => some { s with track := snapshot }
  | .tick => if s.phase = .head then some { s with phase := .draining } else none
  | .pop now =>
    if s.phase = .draining then
      match s.queue.tryPop with
      | none => none
      | some (c, q) => some { s with queue := q, thread := s.thread.apply manualOverrideMs now c }
    else none
  | .drained =>
    if s.phase = .draining ∧ s.queue.tryPop = none then some { s with phase := .deciding }
    else none
  | .act now =>
    if s.phase = .deciding then
      some { s with phase := .head, thread := s.thread.act S now s.track }
    else none

/-! ## Commands on the queue -/

/-- The command a message stands for. -/
def commandOf (type : UInt16) (body : Bytes) : Option Command :=
  match MsgType.ofCode type with
  | some .ServoCmd => some (ClientSession.servoCommand body)
  | some .ModeCmd => some (ClientSession.modeCommand body)
  | _ => none

theorem sendFile_shared (cs : ClientSession κ CommandQueue) (name : Bytes) :
    (cs.sendFile W commandShared name).shared = cs.shared := by
  unfold ClientSession.sendFile
  split
  · rfl
  · -- no file is ever found, so the answer is the one empty chunk
    rfl

theorem deleteFile_shared (cs : ClientSession κ CommandQueue) (body : Bytes) :
    (cs.deleteFile W commandShared body).shared = cs.shared := by
  unfold ClientSession.deleteFile
  split <;> rfl

/-- Handling a message puts its command on the queue and does nothing else to it. -/
theorem afterMessage_eq (q : CommandQueue) (session : ClientSession κ CommandQueue)
    (type : UInt16) (body : Bytes) :
    afterMessage W q session type body = q ++ (commandOf type body).toList := by
  unfold afterMessage ClientSession.handleMessage commandOf
  generalize MsgType.ofCode type = m
  simp only
  split
  · rfl
  · rfl
  · exact (List.append_nil q).symm
  · split
    · exact (List.append_nil q).symm
    · exact (sendFile_shared W _ _).trans (List.append_nil q).symm
  · exact (deleteFile_shared W _ _).trans (List.append_nil q).symm
  · exact (List.append_nil q).symm
  · rename_i h1 h2 _ _ _ _
    split
    · exact absurd rfl h1
    · exact absurd rfl h2
    · exact (List.append_nil q).symm

/-! ## What a step can do -/

variable {W S manualOverrideMs} {s s' : ControlLoop φ}

theorem step_message {session : ClientSession κ CommandQueue} {type : UInt16} {body : Bytes}
    (h : step W S manualOverrideMs s (.message session type body) = some s') :
    session.authed = true ∧ s' = { s with queue := s.queue ++ (commandOf type body).toList } := by
  simp only [step, afterMessage_eq] at h
  split at h
  · exact ⟨‹_›, (Option.some.inj h).symm⟩
  · cases h

theorem step_detect {snapshot : Snapshot}
    (h : step W S manualOverrideMs s (.detect snapshot : Event κ) = some s') :
    s' = { s with track := snapshot } :=
  (Option.some.inj h).symm

theorem step_tick (h : step W S manualOverrideMs s (.tick : Event κ) = some s') :
    s.phase = .head ∧ s' = { s with phase := .draining } := by
  simp only [step] at h
  split at h
  · exact ⟨‹_›, (Option.some.inj h).symm⟩
  · cases h

theorem step_pop {now : UInt64} (h : step W S manualOverrideMs s (.pop now : Event κ) = some s') :
    s.phase = .draining ∧ ∃ c q, s.queue = c :: q ∧
      s' = { s with queue := q, thread := s.thread.apply manualOverrideMs now c } := by
  simp only [step] at h
  split at h
  · refine ⟨‹_›, ?_⟩
    cases hq : s.queue with
    | nil =>
      rw [hq] at h
      cases h
    | cons c q =>
      rw [hq] at h
      exact ⟨c, q, rfl, (Option.some.inj h).symm⟩
  · cases h

theorem step_drained (h : step W S manualOverrideMs s (.drained : Event κ) = some s') :
    s.phase = .draining ∧ s.queue = [] ∧ s' = { s with phase := .deciding } := by
  simp only [step] at h
  split at h
  · rename_i hguard
    refine ⟨hguard.1, ?_, (Option.some.inj h).symm⟩
    cases hq : s.queue with
    | nil => rfl
    | cons c q =>
      rw [hq] at hguard
      cases hguard.2
  · cases h

theorem step_act {now : UInt64} (h : step W S manualOverrideMs s (.act now : Event κ) = some s') :
    s.phase = .deciding ∧ s' = { s with phase := .head, thread := s.thread.act S now s.track } := by
  simp only [step] at h
  split at h
  · exact ⟨‹_›, (Option.some.inj h).symm⟩
  · cases h

/-! ## The machine runs the loop -/

/-- **Refinement.** In every interleaving the thread is where its loop, run
alone on some iterations and some further commands, would have brought it. -/
theorem thread_eq_run {p : TrackerParams} {servo : ServoController φ} {es : List (Event κ)}
    (hplay : play (step W S manualOverrideMs) (initial S p servo) es = some s) :
    ∃ ticks pending, s.thread = ((BusinessThread.create S p servo).run S manualOverrideMs ticks).drain
      manualOverrideMs pending ∧ (s.phase = .head → pending = []) := by
  let Ran (s : ControlLoop φ) : Prop := ∃ ticks pending,
    s.thread = ((BusinessThread.create S p servo).run S manualOverrideMs ticks).drain
      manualOverrideMs pending ∧ (s.phase = .head → pending = [])
  refine invariant (I := Ran) (P := fun _ _ => True) _ ?_ ⟨[], [], rfl, fun _ => rfl⟩
    (Throughout.of_forall _ (fun _ _ => trivial) _ _) hplay
  rintro s e s' ⟨ticks, pending, hthread, hhead⟩ - hstep
  cases e with
  | message session type body =>
    obtain ⟨-, rfl⟩ := step_message hstep
    exact ⟨ticks, pending, hthread, hhead⟩
  | detect snapshot =>
    obtain rfl := step_detect hstep
    exact ⟨ticks, pending, hthread, hhead⟩
  | tick =>
    obtain ⟨-, rfl⟩ := step_tick hstep
    exact ⟨ticks, pending, hthread, nofun⟩
  | pop now =>
    obtain ⟨hphase, c, q, -, rfl⟩ := step_pop hstep
    refine ⟨ticks, pending ++ [(now, c)], ?_, fun h => ?_⟩
    · simp only [hthread, BusinessThread.drain, List.foldl_append, List.foldl_cons, List.foldl_nil]
    · cases hphase.symm.trans h
  | drained =>
    obtain ⟨-, -, rfl⟩ := step_drained hstep
    exact ⟨ticks, pending, hthread, nofun⟩
  | act now =>
    obtain ⟨-, rfl⟩ := step_act hstep
    -- the commands since the last iteration are what this one drained
    refine ⟨ticks ++ [⟨pending, now, s.track⟩], [], ?_, fun _ => rfl⟩
    simp only [hthread, BusinessThread.run, List.foldl_append, List.foldl_cons, List.foldl_nil]
    rfl

end ControlLoop

end FaceTracking
