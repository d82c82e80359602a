import FaceTracking.Lib.Bytes

/-!
# The V4L2 camera

Capture from a V4L2 device: the format is negotiated, a handful of buffers is
mapped and queued, and every frame is decoded from a dequeued buffer before the
buffer is queued again. What the kernel answers is given by a record of
arbitrary functions; its ioctls are those `xioctl` sees, so none of them is
interrupted.

`trace` records the calls with their answers and the reads from mapped memory.
It is written and never read by the definitions.
-/

namespace FaceTracking

open Lib

def V4L2_PIX_FMT_MJPEG : UInt32 := 0x47504A4D

def V4L2_PIX_FMT_YUYV : UInt32 := 0x56595559

def V4L2_CAP_VIDEO_CAPTURE : UInt32 := 0x00000001

def V4L2_CAP_STREAMING : UInt32 := 0x04000000

/-- The part of `v4l2_pix_format` that is set and looked at. -/
structure PixFormat where
  pixelformat : UInt32
  width : UInt32
  height : UInt32
deriving DecidableEq

/-- The kernel; `none` stands for a call that failed. -/
structure V4L2Kernel (κ : Type) where
  openDevice : κ → Int32 × κ
  queryCap : κ → Option UInt32 × κ
  setFormat : κ → PixFormat → Option PixFormat × κ
  /-- The frame rate, by the denominator of the frame time. -/
  setParm : κ → UInt32 → κ
  /-- The number of buffers asked for and the number granted. -/
  requestBuffers : κ → Nat → Option Nat × κ
  /-- Length and offset of a buffer. -/
  queryBuffer : κ → Nat → Option (Nat × Nat) × κ
  mmap : κ → Nat → Nat → Option Nat × κ
  queue : κ → Nat → Bool × κ
  streamOn : κ → Bool × κ
  streamOff : κ → κ
  poll : κ → Int32 × κ
  /-- Index and `bytesused` of the buffer. -/
  dequeue : κ → Option (Nat × Nat) × κ
  munmap : κ → Nat → Nat → κ
  close : κ → κ
  /-- What stands in mapped memory. -/
  contents : κ → Nat → Nat → Bytes

/-- OpenCV's decoders; an image is represented by its pixel bytes. -/
structure FrameDecoders where
  imdecode : Bytes → Bytes
  /-- Width, height and the packed pixels. -/
  yuyvToBgr : Int32 → Int32 → Bytes → Bytes

/-- A call with the descriptor it was made on and its answer, or a read. -/
inductive CaptureEvent where
  | openDevice (fd : Int32)
  | queryCap (fd : Int32) (answer : Option UInt32)
  | setFormat (fd : Int32) (wanted : PixFormat) (answer : Option PixFormat)
  | setParm (fd : Int32) (denominator : UInt32)
  | requestBuffers (fd : Int32) (wanted : Nat) (answer : Option Nat)
  | queryBuffer (fd : Int32) (i : Nat) (answer : Option (Nat × Nat))
  | mmap (fd : Int32) (length offset : Nat) (answer : Option Nat)
  | queue (fd : Int32) (i : Nat) (ok : Bool)
  | streamOn (fd : Int32) (ok : Bool)
  | streamOff (fd : Int32)
  | poll (fd : Int32) (answer : Int32)
  | dequeue (fd : Int32) (answer : Option (Nat × Nat))
  | read (start length : Nat)
  | munmap (start length : Nat)
  | close (fd : Int32)
deriving DecidableEq

/-- A buffer that is not mapped has the null pointer for its start. -/
structure MmapBuffer where
  start : Nat
  length : Nat
deriving DecidableEq

def MmapBuffer.null : MmapBuffer := ⟨0, 0⟩

structure V4L2Camera (κ : Type) where
  kernel : κ
  width : Int32
  height : Int32
  fps : Int32
  fd : Int32
  pixelFormat : UInt32
  buffers : List MmapBuffer
  streaming : Bool
  trace : List CaptureEvent

namespace V4L2Camera

variable {κ : Type} (K : V4L2Kernel κ) (dec : FrameDecoders)

def create (kernel : κ) (width height fps : Int32) : V4L2Camera κ :=
  { kernel, width, height, fps
    fd := -1
    pixelFormat := 0
    buffers := []
    streaming := false
    trace := [] }

/-- A call that has moved the kernel. -/
def emit (c : V4L2Camera κ) (kernel : κ) (e : CaptureEvent) : V4L2Camera κ :=
  { c with kernel, trace := c.trace ++ [e] }

/-! ## Opening -/

/-- The formats that are tried, the compact one first. -/
def candidates : List UInt32 := [V4L2_PIX_FMT_MJPEG, V4L2_PIX_FMT_YUYV]

/-- The loop over the candidates. -/
def tryFormats : List UInt32 → V4L2Camera κ → Bool × V4L2Camera κ
  | [], c => (false, c)
  | fmt :: rest, c =>
    let wanted : PixFormat := ⟨fmt, c.width.toUInt32, c.height.toUInt32⟩
    let r := K.setFormat c.kernel wanted
    let c := c.emit r.2 (.setFormat c.fd wanted r.1)
    match r.1 with
    | none => tryFormats rest c
    | some f =>
      -- the driver may refuse by answering with another format
      if f.pixelformat ≠ fmt then tryFormats rest c
      else
        let c := { c with
          pixelFormat := f.pixelformat
          width := f.width.toInt32
          height := f.height.toInt32 }
        (true, c.emit (K.setParm c.kernel c.fps.toUInt32) (.setParm c.fd c.fps.toUInt32))

def initFormat (c : V4L2Camera κ) : Bool × V4L2Camera κ := tryFormats K candidates c

/-- The loop over the buffers; a failure leaves the rest unmapped. -/
def mapBuffers : List Nat → V4L2Camera κ → Bool × V4L2Camera κ
  | [], c => (true, c)
  | i :: rest, c =>
    let q := K.queryBuffer c.kernel i
    let c := c.emit q.2 (.queryBuffer c.fd i q.1)
    match q.1 with
    | none => (false, c)
    | some buf =>
      let p := K.mmap c.kernel buf.1 buf.2
      let c := c.emit p.2 (.mmap c.fd buf.1 buf.2 p.1)
      match p.1 with
      | none => (false, c)
      | some start => mapBuffers rest { c with buffers := c.buffers.set i ⟨start, buf.1⟩ }

def initBuffers (c : V4L2Camera κ) : Bool × V4L2Camera κ :=
  let r := K.requestBuffers c.kernel 4
  let c := c.emit r.2 (.requestBuffers c.fd 4 r.1)
  match r.1 with
  | none => (false, c)
  | some count =>
    if count < 2 then (false, c)
    else mapBuffers K (List.range count) { c with buffers := List.replicate count .null }

/-- The loop that queues the buffers. -/
def queueBuffers : List Nat → V4L2Camera κ → Bool × V4L2Camera κ
  | [], c => (true, c)
  | i :: rest, c =>
    let r := K.queue c.kernel i
    let c := c.emit r.2 (.queue c.fd i r.1)
    if r.1 then queueBuffers rest c else (false, c)

def startStreaming (c : V4L2Camera κ) : Bool × V4L2Camera κ :=
  let q := queueBuffers K (List.range c.buffers.length) c
  if q.1 then
    let r := K.streamOn q.2.kernel
    let c := q.2.emit r.2 (.streamOn q.2.fd r.1)
    if r.1 then (true, { c with streaming := true }) else (false, c)
  else q

/-- The capabilities a camera must have. -/
def capable (capabilities : UInt32) : Bool :=
  capabilities &&& V4L2_CAP_VIDEO_CAPTURE ≠ 0 && capabilities &&& V4L2_CAP_STREAMING ≠ 0

/-- `initFormat() && initBuffers() && startStreaming()`. -/
def initDevice (c : V4L2Camera κ) : Bool × V4L2Camera κ :=
  let f := initFormat K c
  if f.1 then
    let b := initBuffers K f.2
    if b.1 then startStreaming K b.2 else b
  else f

def openCamera (c : V4L2Camera κ) : Bool × V4L2Camera κ :=
  let r := K.openDevice c.kernel
  let c := { c with fd := r.1 }.emit r.2 (.openDevice r.1)
  if c.fd < 0 then (false, c)
  else
    let q := K.queryCap c.kernel
    let c := c.emit q.2 (.queryCap c.fd q.1)
    match q.1 with
    | none => (false, c)
    | some capabilities => if capable capabilities then initDevice K c else (false, c)

/-! ## Grabbing -/

/-- The pixels of a dequeued buffer, decoded. -/
def decode (c : V4L2Camera κ) (start bytesused : Nat) : Bytes × V4L2Camera κ :=
  if c.pixelFormat = V4L2_PIX_FMT_MJPEG then
    (dec.imdecode (K.contents c.kernel start bytesused), c.emit c.kernel (.read start bytesused))
  else
    -- two bytes for each pixel
    let length := 2 * c.height.toInt.toNat * c.width.toInt.toNat
    (dec.yuyvToBgr c.width c.height (K.contents c.kernel start length),
      c.emit c.kernel (.read start length))

/-- The image, empty where the source returns false. -/
def grab (c : V4L2Camera κ) : Bytes × V4L2Camera κ :=
  if c.fd < 0 then ([], c)
  else
    let p := K.poll c.kernel
    let c := c.emit p.2 (.poll c.fd p.1)
    if p.1 ≤ 0 then ([], c)
    else
      let d := K.dequeue c.kernel
      let c := c.emit d.2 (.dequeue c.fd d.1)
      match d.1 with
      | none => ([], c)
      | some buf =>
        let r := decode K dec c (c.buffers.getD buf.1 .null).start buf.2
        -- only now may the driver write to the buffer again
        let q := K.queue r.2.kernel buf.1
        (r.1, r.2.emit q.2 (.queue r.2.fd buf.1 q.1))

/-! ## Closing -/

def unmapBuffers : List MmapBuffer → V4L2Camera κ → V4L2Camera κ
  | [], c => c
  | b :: rest, c =>
    if b.start = 0 then unmapBuffers rest c
    else unmapBuffers rest (c.emit (K.munmap c.kernel b.start b.length) (.munmap b.start b.length))

def stopStreaming (c : V4L2Camera κ) : V4L2Camera κ :=
  if c.streaming then { c.emit (K.streamOff c.kernel) (.streamOff c.fd) with streaming := false }
  else c

def closeCamera (c : V4L2Camera κ) : V4L2Camera κ :=
  let c := stopStreaming K c
  let c : V4L2Camera κ := { unmapBuffers K c.buffers c with buffers := [] }
  if c.fd < 0 then c else { c.emit (K.close c.kernel) (.close c.fd) with fd := -1 }

/-! ## Runs -/

/-- The calls of the interface. -/
inductive Call where
  | openCamera
  | grab
  | close
deriving DecidableEq

def call (c : V4L2Camera κ) : Call → V4L2Camera κ
  | .openCamera => (openCamera K c).2
  | .grab => (grab K dec c).2
  | .close => closeCamera K c

/-- The camera behind a sequence of calls. -/
def calls (c : V4L2Camera κ) (l : List Call) : V4L2Camera κ := l.foldl (call K dec) c

end V4L2Camera

end FaceTracking
