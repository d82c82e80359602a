import FaceTracking.Lib.ExtRat

/-!
# State shared between the terminal's threads

The frame the vision thread publishes, the commands that flow from client
sessions to the business thread, and the detection snapshot the servo loop
reads. Each is guarded by its own mutex in the source, so every operation on
one of them is a single step.
-/

namespace FaceTracking

open Lib

/-! ## Frames -/

/-- One captured frame: the annotated image for the display, the JPEG encoded
once for every client. An image is represented by its pixel bytes. -/
structure Frame where
  mat : Bytes
  jpeg : Bytes
  seq : UInt32
  width : Int32
  height : Int32
  tsMs : UInt64
deriving DecidableEq

/-- The exchange of the latest frame; `none` before the first. -/
abbrev FrameHub := Option Frame

namespace FrameHub

def publish (_ : FrameHub) (f : Frame) : FrameHub := some f

def latest (hub : FrameHub) : Option Frame := hub

end FrameHub

/-- One entry of the capture directory. -/
structure FileInfo where
  name : Bytes
  size : UInt64
  mtime : UInt64
deriving DecidableEq

/-! ## Commands -/

inductive CommandType where
  /-- Relative: pan and tilt are deltas in degrees. -/
  | ServoStep
  /-- Absolute: pan and tilt are target degrees. -/
  | ServoAbs
  /-- Switches auto-tracking on or off. -/
  | SetMode
deriving DecidableEq, Repr

structure Command where
  type : CommandType
  pan : ExtRat
  tilt : ExtRat
  autoTrack : Bool
deriving DecidableEq

/-- The values a default-constructed command starts from. -/
def Command.default : Command := ⟨.ServoStep, .fin 0, .fin 0, true⟩

/-- The command queue, front first. -/
abbrev CommandQueue := List Command

namespace CommandQueue

def push (q : CommandQueue) (c : Command) : CommandQueue := q ++ [c]

/-- Non-blocking pop; `none` if empty. -/
def tryPop : CommandQueue → Option (Command × CommandQueue)
  | [] => none
  | c :: q => some (c, q)

end CommandQueue

/-! ## Detections -/

structure Point2i where
  x : Int
  y : Int
deriving DecidableEq, Repr

structure Recti where
  x : Int
  y : Int
  w : Int
  h : Int
deriving DecidableEq, Repr

def Recti.center (r : Recti) : Point2i := ⟨r.x + r.w.tdiv 2, r.y + r.h.tdiv 2⟩

/-- The last detection result. -/
structure Snapshot where
  found : Bool
  box : Recti
  center : Point2i
  frameW : Int
  frameH : Int
deriving DecidableEq, Repr

/-- The snapshot before the first detection. -/
def Snapshot.initial : Snapshot := ⟨false, ⟨0, 0, 0, 0⟩, ⟨0, 0⟩, 0, 0⟩

/-- What `update` stores, written once per processed frame. -/
def TrackingState.update (found : Bool) (box : Recti) (frameW frameH : Int) : Snapshot :=
  ⟨found, box, box.center, frameW, frameH⟩

end FaceTracking
