import FaceTracking.Core.ClientRegistry
import FaceTracking.Net.TcpServer

/-!
# The terminal's main function

`main`, from the opening of the devices to the destruction of its locals, next
to the threads it starts and the sessions that the listeners among these start.

A `Program` is what is left of `main`. Where a failure ends it early, or skips a
part of it, the program branches. A thread is its two members in
`StoppableThread` and a place in its `run`; what a thread does in the body of
its loop is here only its call of the device it owns, and the automatic snapshots,
each of them a detached thread that nobody joins. The registry is
`Registry.State`, so its mutex is held over many steps. A session goes by the
number of its adoption, also before it is adopted.
-/

namespace FaceTracking.Main

open Lib

inductive Device where
  | camera
  | display
  | servo
deriving DecidableEq, Repr

/-- A call on a device; `ok` is what `open` or `init` returned. -/
inductive Call where
  | opened (ok : Bool)
  /-- `grab`, `show` or `setAngles`. -/
  | used
  /-- `close` or `release`. -/
  | closed
deriving DecidableEq, Repr

/-! ## Threads -/

/-- The threads that `main` owns. -/
inductive Worker where
  | vision
  | displayThread
  | business
  | server
  | wsServer
  | tlsServer
  | wssServer
deriving DecidableEq, Repr

namespace Worker

def isServer : Worker → Bool
  | server | wsServer | tlsServer | wssServer => true
  | _ => false

/-- The device that only this thread uses. -/
def device : Worker → Option Device
  | vision => some .camera
  | displayThread => some .display
  | business => some .servo
  | _ => none

def servers : List Worker := [server, wsServer, tlsServer, wssServer]

end Worker

/-- Where a thread is in its `run`. -/
inductive Place where
  /-- `while (running())`. -/
  | check
  /-- The body of a loop that owns a device. -/
  | body
  | polling
  | accepting
  /-- In `acceptOne`, about to compare the number of clients with the cap. -/
  | counting
  | spawning
  /-- The session's thread is there. -/
  | adopting
  /-- About to call `reapFinished`. -/
  | reap
  /-- In it. -/
  | reaping
  /-- Behind the accept loop. -/
  | closing
deriving DecidableEq, Repr

inductive Thread where
  /-- Not joinable. -/
  | absent
  | live (place : Place)
  /-- `run` has returned. -/
  | ended
deriving DecidableEq, Repr

structure StoppableThread where
  running : Bool
  thread : Thread
deriving DecidableEq, Repr

namespace StoppableThread

def new : StoppableThread := ⟨false, .absent⟩

/-- Assigning to a joinable `std::thread` terminates the process: `none`. -/
def start (t : StoppableThread) : Option StoppableThread :=
  if t.running then some t
  else if t.thread = .absent then some ⟨true, .live .check⟩
  else none

def stop (t : StoppableThread) : StoppableThread := { t with running := false }

/-- `none` while it waits. -/
def join (t : StoppableThread) : Option StoppableThread :=
  match t.thread with
  | .absent => some t
  | .ended => some { t with thread := .absent }
  | .live _ => none

end StoppableThread

/-! ## The program -/

inductive Statement where
  | openDevice (d : Device)
  | closeDevice (d : Device)
  /-- `bindAndListen` of a listener that `main` does without if it fails. -/
  | bind (w : Worker)
  | start (w : Worker)
  | stop (w : Worker)
  | join (w : Worker)
  /-- The loop on `g_stop`. -/
  | awaitSignal
  | stopAll
  /-- In `stopAll`. -/
  | stoppingAll
deriving DecidableEq, Repr

/-- A call whose outcome decides how `main` goes on. -/
inductive Attempt where
  | openCamera
  | loadDetector
  | bindServer
  | createTls
deriving DecidableEq, Repr

inductive Program where
  | done
  | step (c : Statement) (next : Program)
  | attempt (a : Attempt) (yes no : Program)
deriving DecidableEq

def Program.run (l : List Statement) (next : Program) : Program := l.foldr .step next

/-- What decides which listeners there are. -/
structure Listeners where
  /-- `wsEnabled`. -/
  ws : Bool
  /-- Built with TLS, and a certificate and a key are set. -/
  tls : Bool

def stopJoin (ws : List Worker) : List Statement := ws.flatMap fun w => [.stop w, .join w]

/-- The destructors: of the threads, the devices and the registry. -/
def destroy (ws : List Worker) : Program :=
  .run (stopJoin ws ++ [.closeDevice .servo, .closeDevice .display, .closeDevice .camera,
    .stopAll]) .done

/-- From the start of the threads to the end. -/
def serve : Program :=
  .run ([.start .vision, .start .displayThread, .start .business, .start .server,
      .start .wsServer, .start .tlsServer, .start .wssServer, .awaitSignal] ++
    stopJoin [.server, .wsServer, .tlsServer, .wssServer, .vision, .business, .displayThread] ++
    [.stopAll, .closeDevice .servo, .closeDevice .camera, .closeDevice .display])
    (destroy [.wssServer, .tlsServer, .wsServer, .server, .business, .displayThread, .vision])

/-- The additional listeners. A null `std::unique_ptr<TcpServer>` is a listener
that is not bound. -/
def bindListeners (cfg : Listeners) : Program :=
  let tls : Program :=
    if cfg.tls then
      .attempt .createTls
        (.step (.bind .tlsServer) (if cfg.ws then .step (.bind .wssServer) serve else serve)) serve
    else serve
  if cfg.ws then .step (.bind .wsServer) tls else tls

def program (cfg : Listeners) : Program :=
  .attempt .openCamera
    (.run [.openDevice .display, .openDevice .servo]
      (.attempt .loadDetector
        (.attempt .bindServer (bindListeners cfg)
          (.step (.closeDevice .camera)
            (destroy [.server, .business, .displayThread, .vision])))
        (.step (.closeDevice .camera) (destroy []))))
    (destroy [])

/-! ## The machine -/

structure State where
  program : Program
  /-- `g_stop`. -/
  signalled : Bool
  threads : Worker → StoppableThread
  /-- The threads that can be started. -/
  bound : List Worker
  registry : Registry.State
  /-- The sessions whose `stop_` is set. -/
  requested : List Nat
  calls : List (Device × Call)
  /-- Number of detached threads that are in `files_.snapshot`. -/
  snapshots : Nat

/-- What the call that a thread is at returns. -/
inductive Outcome where
  /-- `poll` timed out; `accept` failed; there is no frame to show. -/
  | nothing
  /-- `poll` found a connection; `accept` returned it; there is a frame to show;
  the frame that was grabbed is due for an automatic snapshot. -/
  | ready
  /-- `poll` was interrupted. -/
  | interrupted
  /-- `poll` failed. -/
  | failed
deriving DecidableEq, Repr

inductive Event where
  | signal
  /-- The next step of `main`; `ok` is the outcome of an attempt, or of opening
  or binding. -/
  | main (ok : Bool)
  /-- The next step of a thread. -/
  | run (w : Worker) (o : Outcome)
  /-- A session's loop ends because of its connection. -/
  | hangUp (session : Nat)
  /-- It ends because of `stop_`. -/
  | obey (session : Nat)
  /-- A session's thread returns. -/
  | exit (session : Nat)
  /-- A snapshot has been saved, or could not be, and its thread returns. -/
  | saved
deriving DecidableEq, Repr

namespace State

def initial (cfg : Listeners) : State where
  program := Main.program cfg
  signalled := false
  threads _ := .new
  bound := [.vision, .displayThread, .business]
  registry := .initial
  requested := []
  calls := []
  snapshots := 0

def setThread (s : State) (w : Worker) (t : StoppableThread) : State :=
  { s with threads := fun v => if v = w then t else s.threads v }

def goto (s : State) (w : Worker) (place : Place) : State :=
  s.setThread w { s.threads w with thread := .live place }

def call (s : State) (d : Device) (c : Call) : State := { s with calls := s.calls ++ [(d, c)] }

/-- The sessions asked to stop in a step of the registry. -/
def requests (as : List Registry.Action) : List Nat :=
  as.filterMap fun
    | .requestStop session => some session
    | _ => none

/-- The next step of the registry operation that is going on. -/
def advance (s : State) : Option State :=
  s.registry.advance.map fun r =>
    { s with registry := r.1, requested := s.requested ++ requests r.2 }

/-- The sessions whose thread has been created. -/
def spawned (s : State) : Nat :=
  s.registry.adopted +
    Worker.servers.countP fun w => (s.threads w).thread == .live .adopting

/-! ### The steps of `main` -/

/-- A statement, in front of `next`. -/
def perform (s : State) (next : Program) (ok : Bool) : Statement → Option State
  | .openDevice d => some ({ s with program := next }.call d (.opened ok))
  | .closeDevice d => some ({ s with program := next }.call d .closed)
  | .bind w => some { s with program := next, bound := if ok then w :: s.bound else s.bound }
  | .start w =>
    if w ∈ s.bound then (s.threads w).start.map ({ s with program := next }.setThread w)
    else some { s with program := next }
  | .stop w => some ({ s with program := next }.setThread w (s.threads w).stop)
  | .join w => (s.threads w).join.map ({ s with program := next }.setThread w)
  | .awaitSignal => if s.signalled then some { s with program := next } else none
  | .stopAll =>
    (s.registry.step .stopAll).map fun registry =>
      { s with registry, program := .step .stoppingAll next }
  | .stoppingAll =>
    s.advance.map fun s =>
      if s.registry.holder = .free then { s with program := next } else s

def attempted (s : State) (ok : Bool) : Attempt → State
  | .openCamera => s.call .camera (.opened ok)
  | .bindServer => if ok then { s with bound := .server :: s.bound } else s
  | .loadDetector | .createTls => s

def mainStep (s : State) (ok : Bool) : Option State :=
  match s.program with
  | .done => none
  | .step c next => s.perform next ok c
  | .attempt a yes no => some ({ s with program := if ok then yes else no }.attempted ok a)

/-! ### The steps of a thread -/

/-- The call in the body of a loop. `DisplayThread` shows a frame if there is
one. -/
def use (s : State) (w : Worker) (o : Outcome) : State :=
  match w.device with
  | none => s
  | some d => if w = .displayThread ∧ o = .nothing then s else s.call d .used

variable (maxClients : Int32) (autoSnapshot : Bool)

/-- `VisionThread` starts a thread for a snapshot and detaches it. -/
def snapshot (s : State) (w : Worker) (o : Outcome) : State :=
  if autoSnapshot = true ∧ w = .vision ∧ o = .ready then { s with snapshots := s.snapshots + 1 }
  else s

def threadStep (s : State) (w : Worker) (o : Outcome) : Option State :=
  match (s.threads w).thread with
  | .absent | .ended => none
  | .live .check =>
    if (s.threads w).running then some (s.goto w (if w.isServer then .polling else .body))
    else if w.isServer then some (s.goto w .closing)
    else some (s.setThread w { s.threads w with thread := .ended })
  | .live .body => some (((s.use w o).snapshot autoSnapshot w o).goto w .check)
  | .live .polling =>
    match o with
    | .nothing => some (s.goto w .reap)
    | .ready => some (s.goto w .accepting)
    | .interrupted => some (s.goto w .check)
    | .failed => some (s.goto w .closing)
  | .live .accepting => some (s.goto w (if o = .ready then .counting else .reap))
  | .live .counting =>
    if s.registry.holder = .free then
      some (s.goto w (if s.registry.count ≥ Terminal.cap maxClients then .reap else .spawning))
    else none
  | .live .spawning => some (s.goto w .adopting)
  | .live .adopting =>
    (s.registry.step .adopt).map fun registry => { s with registry }.goto w .reap
  | .live .reap =>
    (s.registry.step .reapFinished).map fun registry => { s with registry }.goto w .reaping
  | .live .reaping =>
    s.advance.map fun s => if s.registry.holder = .free then s.goto w .check else s
  | .live .closing => some (s.setThread w { s.threads w with thread := .ended })

/-- The loop of a session ends. -/
def finish (s : State) (session : Nat) : Option State :=
  if session < s.spawned ∧ session ∉ s.registry.finished then
    (s.registry.step (.finish session)).map fun registry => { s with registry }
  else none

/-- Its thread returns. -/
def exit (s : State) (session : Nat) : Option State :=
  if session < s.spawned ∧ session ∉ s.registry.returned then
    (s.registry.step (.exit session)).map fun registry => { s with registry }
  else none

def step (s : State) : Event → Option State
  | .signal => some { s with signalled := true }
  | .main ok => s.mainStep ok
  | .run w o => s.threadStep maxClients autoSnapshot w o
  | .hangUp session => s.finish session
  | .obey session => if session ∈ s.requested then s.finish session else none
  | .exit session => s.exit session
  | .saved => if 0 < s.snapshots then some { s with snapshots := s.snapshots - 1 } else none

end State

/-! ## What a step of a thread does -/

/-- The places that are in the `run` of a thread. -/
def Place.fits (w : Worker) : Place → Bool
  | .check => true
  | .body => !w.isServer
  | _ => w.isServer

/-- The steps of a thread one by one. -/
inductive ThreadMoves (autoSnapshot : Bool) (s : State) (w : Worker) : State → Prop where
  | goto (place next : Place) (hat : (s.threads w).thread = .live place) (hplace : place ≠ .reaping)
      (hnext : next ≠ .reaping) (hfits : place.fits w = true → next.fits w = true) :
      ThreadMoves autoSnapshot s w (s.goto w next)
  | use (o : Outcome) (hat : (s.threads w).thread = .live .body) :
      ThreadMoves autoSnapshot s w (((s.use w o).snapshot autoSnapshot w o).goto w .check)
  | adopt (hat : (s.threads w).thread = .live .adopting) (hfree : s.registry.holder = .free) :
      ThreadMoves autoSnapshot s w ({ s with registry := s.registry.adopt }.goto w .reap)
  | reap (hat : (s.threads w).thread = .live .reap) (hfree : s.registry.holder = .free) :
      ThreadMoves autoSnapshot s w
        ({ s with registry := { s.registry with holder := .reaping 0 } }.goto w .reaping)
  | reaping (u : State) (hat : (s.threads w).thread = .live .reaping) (hu : s.advance = some u)
      (hheld : u.registry.holder ≠ .free) : ThreadMoves autoSnapshot s w u
  | reaped (u : State) (hat : (s.threads w).thread = .live .reaping) (hu : s.advance = some u)
      (hfree : u.registry.holder = .free) : ThreadMoves autoSnapshot s w (u.goto w .check)
  | ended (place : Place) (hat : (s.threads w).thread = .live place) (hplace : place ≠ .reaping) :
      ThreadMoves autoSnapshot s w (s.setThread w { s.threads w with thread := .ended })

theorem threadMoves {maxClients : Int32} {autoSnapshot : Bool} {s s' : State} {w : Worker}
    {o : Outcome} (h : s.threadStep maxClients autoSnapshot w o = some s') :
    ThreadMoves autoSnapshot s w s' := by
  unfold State.threadStep at h
  cases hat : (s.threads w).thread with
  | absent =>
    simp only [hat] at h
    cases h
  | ended =>
    simp only [hat] at h
    cases h
  | live place =>
    cases place with
    | check =>
      simp only [hat] at h
      split at h
      · cases h
        refine .goto .check _ hat nofun ?_ fun _ => ?_
        · split <;> exact nofun
        · cases hw : w.isServer <;> simp [Place.fits, hw]
      · split at h
        · cases h
          exact .goto .check _ hat nofun nofun fun _ => ‹_›
        · cases h
          exact .ended .check hat nofun
    | body =>
      simp only [hat] at h
      cases h
      exact .use o hat
    | polling =>
      simp only [hat] at h
      cases o with
      | nothing | ready | failed =>
        cases h
        exact .goto .polling _ hat nofun nofun id
      | interrupted =>
        cases h
        exact .goto .polling _ hat nofun nofun fun _ => rfl
    | accepting =>
      simp only [hat] at h
      cases h
      refine .goto .accepting _ hat nofun ?_ ?_
      · split <;> exact nofun
      · split <;> exact id
    | counting =>
      simp only [hat] at h
      obtain ⟨-, heq⟩ := Option.ite_none_right_eq_some.mp h
      cases heq
      refine .goto .counting _ hat nofun ?_ ?_
      · split <;> exact nofun
      · split <;> exact id
    | spawning =>
      simp only [hat] at h
      cases h
      exact .goto .spawning _ hat nofun nofun id
    | adopting =>
      simp only [hat] at h
      obtain ⟨registry, hr, rfl⟩ := Option.map_eq_some_iff.mp h
      obtain ⟨⟨_, as⟩, hreact, rfl⟩ := Option.map_eq_some_iff.mp hr
      obtain ⟨hfree, heq⟩ := Option.ite_none_right_eq_some.mp hreact
      cases heq
      exact .adopt hat hfree
    | reap =>
      simp only [hat] at h
      obtain ⟨registry, hr, rfl⟩ := Option.map_eq_some_iff.mp h
      obtain ⟨hfree, rfl, -⟩ := Registry.State.reapFinished_of_step hr
      exact .reap hat hfree
    | reaping =>
      simp only [hat] at h
      obtain ⟨u, hu, rfl⟩ := Option.map_eq_some_iff.mp h
      split
      · exact .reaped u hat hu ‹_›
      · exact .reaping u hat hu ‹_›
    | closing =>
      simp only [hat] at h
      cases h
      exact .ended .closing hat nofun

/-! ## Turns -/

/-- Whose turn a step is. -/
inductive Turn where
  | main
  | run (w : Worker)
  | session (session : Nat)
  | snapshot
deriving DecidableEq, Repr

/-- The steps that a scheduler decides on. Signals and the ends of connections
come from outside. -/
def Event.turn : Event → Option Turn
  | .signal | .hangUp _ => none
  | .main _ => some .main
  | .run w _ => some (.run w)
  | .obey session | .exit session => some (.session session)
  | .saved => some .snapshot

end FaceTracking.Main
