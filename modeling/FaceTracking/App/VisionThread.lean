import FaceTracking.Core.Types

/-!
# The vision thread

Frames from the camera: detection, overlay, publication, the tracking state,
the status board, the automatic snapshot. An iteration is a function of what
the camera, the detector and the clock give it. What it does to the shared
objects is a list of effects, each of them one step under a mutex or on an
atomic; `detections` are the ones that reach the servo loop, `publications`
the ones that reach the client sessions.
-/

namespace FaceTracking

open Lib ExtRat

/-- A frame as the camera delivers it, by its pixel bytes. -/
structure Captured where
  image : Bytes
  cols : Int32
  rows : Int32

/-- What drawing and encoding make of an image. -/
structure OpenCv where
  /-- The crosshair, and for a face its box and the error line. -/
  overlay : Captured → Option Recti → Bytes
  imencode : Bytes → Int32 → Bytes

/-- What one iteration meets. -/
structure Grab where
  /-- `none` if grabbing failed or gave an empty image. -/
  frame : Option Captured
  /-- The face that `detect` found. -/
  face : Option Recti
  /-- The reading the frame is stamped with. -/
  stampMs : UInt64
  /-- The reading for the frame rate and the automatic snapshot. -/
  now : UInt64

/-- A step of the thread on a shared object. -/
inductive VisionEffect where
  | publish (f : Frame)
  | update (s : Snapshot)
  | faceFound (found : Bool)
  | captureFps (fps : ExtRat)
  /-- A detached thread saves the image. -/
  | snapshot (image : Bytes)
deriving DecidableEq

structure VisionThread where
  jpegQuality : Int32
  autoSnapshot : Bool
  autoSnapshotIntervalMs : Int32
  seq : UInt32
  fps : ExtRat
  lastT : UInt64
  lastSnapMs : UInt64
  prevFound : Bool

namespace VisionThread

/-- The thread as it starts. -/
def create (jpegQuality : Int32) (autoSnapshot : Bool) (autoSnapshotIntervalMs : Int32)
    (now : UInt64) : VisionThread :=
  { jpegQuality, autoSnapshot, autoSnapshotIntervalMs, seq := 0, fps := .fin 0, lastT := now,
    lastSnapMs := 0, prevFound := false }

/-- The frame rate as an exponential moving average. -/
def nextFps (fps : ExtRat) (dtMs : UInt64) : ExtRat :=
  let dt : ℚ := dtMs.toNat / 1000
  if 0 < dt then
    if fps = .fin 0 then .fin (1 / dt)
    else (fps.mul (.fin (9 / 10))).add (.fin (1 / dt * (1 / 10)))
  else fps

/-- The rising edge of a detection, not too soon after the last snapshot. -/
def snapshotDue (v : VisionThread) (found : Bool) (now : UInt64) : Bool :=
  v.autoSnapshot && found && !v.prevFound &&
    decide (now - v.lastSnapMs ≥ v.autoSnapshotIntervalMs.toInt64.toUInt64)

/-- A processed frame. -/
def process (cv : OpenCv) (v : VisionThread) (c : Captured) (g : Grab) :
    VisionThread × List VisionEffect :=
  let found := g.face.isSome
  let image := cv.overlay c g.face
  let f : Frame := ⟨image, cv.imencode image v.jpegQuality, v.seq, c.cols, c.rows, g.stampMs⟩
  let box := g.face.getD ⟨0, 0, 0, 0⟩
  let fps := nextFps v.fps (g.now - v.lastT)
  let due := v.snapshotDue found g.now
  ({ v with
      seq := v.seq + 1
      fps := fps
      lastT := g.now
      lastSnapMs := if due then g.now else v.lastSnapMs
      prevFound := found },
    [.publish f, .update (TrackingState.update found box c.cols.toInt c.rows.toInt),
      .faceFound found, .captureFps fps] ++ if due then [.snapshot image] else [])

/-- One iteration. After a failed grab nothing is touched. -/
def iterate (cv : OpenCv) (v : VisionThread) (g : Grab) : VisionThread × List VisionEffect :=
  match g.frame with
  | none => (v, [])
  | some c => v.process cv c g

/-- What effects store in the tracking state. -/
def detections (es : List VisionEffect) : List Snapshot :=
  es.filterMap fun
    | .update s => some s
    | _ => none

/-- A processed frame stores one detection. -/
theorem detections_process (cv : OpenCv) (v : VisionThread) (c : Captured) (g : Grab) :
    detections (v.process cv c g).2 = [TrackingState.update g.face.isSome
      (g.face.getD ⟨0, 0, 0, 0⟩) c.cols.toInt c.rows.toInt] := by
  unfold process detections
  simp only [List.filterMap_append]
  split <;> rfl

/-- An iteration stores a detection just if it got a frame. -/
theorem detections_iterate (cv : OpenCv) (v : VisionThread) (g : Grab) :
    detections (v.iterate cv g).2 = (g.frame.map fun c => TrackingState.update g.face.isSome
      (g.face.getD ⟨0, 0, 0, 0⟩) c.cols.toInt c.rows.toInt).toList := by
  unfold iterate
  cases g.frame with
  | none => rfl
  | some c => exact detections_process cv v c g

/-- What effects publish in the frame hub. -/
def publications (es : List VisionEffect) : List Frame :=
  es.filterMap fun
    | .publish f => some f
    | _ => none

/-- An iteration publishes a frame just if it got one, under the next sequence
number. -/
theorem publications_iterate (cv : OpenCv) (v : VisionThread) (g : Grab) :
    publications (v.iterate cv g).2 = [] ∧ (v.iterate cv g).1.seq = v.seq ∨
      ∃ f : Frame, publications (v.iterate cv g).2 = [f] ∧ f.seq = v.seq ∧
        (v.iterate cv g).1.seq = v.seq + 1 := by
  unfold iterate
  cases g.frame with
  | none => exact .inl ⟨rfl, rfl⟩
  | some c =>
    let image := cv.overlay c g.face
    refine .inr ⟨⟨image, cv.imencode image v.jpegQuality, v.seq, c.cols, c.rows, g.stampMs⟩, ?_,
      rfl, rfl⟩
    unfold process publications
    simp only [List.filterMap_append]
    split <;> rfl

end VisionThread

end FaceTracking
