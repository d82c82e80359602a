import FaceTracking.Core.Types
import FaceTracking.Net.Auth
import FaceTracking.Net.Conn
import FaceTracking.Net.Framing

/-!
# The client session

One `ClientSession` per connected client: a poll loop that reads and
dispatches messages and pushes video frames. The session touches the outside
through two records. `World` is what the peer and the kernel decide: the
connection, the clock, the stop flag and `poll`. `Shared` is what the session
has in common with the rest of the terminal: the frame hub, the command queue
and the capture directory. Their operations are arbitrary functions of their
own states, so a theorem about a run covers every content and every
interleaving with other threads.

`trace` records what the session does, in order. It is written and never read
by the definitions.
-/

namespace FaceTracking

open Lib Proto

/-- What `poll` on the connection's descriptor reports. -/
inductive PollResult where
  /-- `EINTR`. -/
  | interrupted
  | failed
  | timedOut
  /-- `fault` is any of POLLERR, POLLHUP and POLLNVAL; `readable` is POLLIN. -/
  | ready (fault readable : Bool)
deriving DecidableEq, Repr

/-- The peer's and the kernel's side of a session. -/
structure World (κ : Type) where
  conn : IConn κ
  nowMs : κ → UInt64 × κ
  stopped : κ → Bool × κ
  poll : κ → Int32 → PollResult × κ

/-- The clock, the stop flag and `poll`. -/
structure Environment (ε : Type) where
  nowMs : ε → UInt64 × ε
  stopped : ε → Bool × ε
  poll : ε → Int32 → PollResult × ε

/-- A connection in an environment that knows nothing of it. -/
def World.of {χ ε : Type} (C : IConn χ) (E : Environment ε) : World (χ × ε) where
  conn :=
    { handshake := fun k => ((C.handshake k.1).1, (C.handshake k.1).2, k.2)
      recv := fun k cap => ((C.recv k.1 cap).1, (C.recv k.1 cap).2, k.2)
      send := fun k b => ((C.send k.1 b).1, (C.send k.1 b).2, k.2)
      close := fun k => (C.close k.1, k.2)
      recv_le := C.recv_fst_le }
  nowMs k := ((E.nowMs k.2).1, k.1, (E.nowMs k.2).2)
  stopped k := ((E.stopped k.2).1, k.1, (E.stopped k.2).2)
  poll k timeout := ((E.poll k.2 timeout).1, k.1, (E.poll k.2 timeout).2)

/-- An environment that plays back a schedule of poll outcomes under a clock
that stands still; the session is stopped when the schedule ends. -/
def schedule (now : UInt64) : Environment (List PollResult) where
  nowMs ps := (now, ps)
  stopped ps := (ps.isEmpty, ps)
  poll ps _ := (ps.headD .failed, ps.tail)

/-- The terminal's side of a session. -/
structure Shared (ψ : Type) where
  latest : ψ → Option Frame × ψ
  push : ψ → Command → ψ
  list : ψ → List FileInfo × ψ
  read : ψ → Bytes → Option Bytes × ψ
  remove : ψ → Bytes → Bool × ψ
  snapshot : ψ → Bytes → ψ

/-- A terminal without frames or files that takes no notice of commands. -/
def Shared.empty : Shared Unit where
  latest _ := (none, ())
  push _ _ := ()
  list _ := ([], ())
  read _ _ := (none, ())
  remove _ _ := (false, ())
  snapshot _ _ := ()

/-- What a session does that others can notice. -/
inductive Event where
  /-- A buffer passed to `conn_->send` and the result. -/
  | send (data : Bytes) (ok : Bool)
  | recv (result : ReadResult)
  /-- The gate opens. -/
  | authenticated
  /-- A call of `handleMessage`. -/
  | message (type : UInt16) (payload : Bytes)
  | latest
  | push (c : Command)
  | list
  | read (name : Bytes)
  | remove (name : Bytes)
  | snapshot
  | close
deriving DecidableEq

def Event.isSend : Event → Bool
  | .send _ _ => true
  | _ => false

/-- Is the event an operation on what the session shares with the terminal? -/
def Event.isShared : Event → Bool
  | .latest | .push _ | .list | .read _ | .remove _ | .snapshot => true
  | _ => false

/-- The buffers passed to `conn_->send`. -/
def sends (t : List Event) : List Bytes :=
  t.filterMap fun | .send data _ => some data | _ => none

/-- The bytes delivered by `conn_->recv`. -/
def received (t : List Event) : Bytes :=
  t.flatMap fun | .recv r => bytesOf r | _ => []

/-- The calls of `handleMessage`. -/
def handled (t : List Event) : List (UInt16 × Bytes) :=
  t.filterMap fun | .message type payload => some (type, payload) | _ => none

@[simp] theorem sends_append (t t' : List Event) : sends (t ++ t') = sends t ++ sends t' := by
  simp [sends]

@[simp] theorem received_append (t t' : List Event) :
    received (t ++ t') = received t ++ received t' := by
  simp [received]

@[simp] theorem handled_append (t t' : List Event) :
    handled (t ++ t') = handled t ++ handled t' := by
  simp [handled]

/-- The constructor's parameters. -/
structure SessionConfig where
  streamFps : Int32
  /-- Required token; empty switches authentication off. -/
  authToken : Bytes

/-- A client that never sends a valid HELLO is dropped after this long. -/
def kAuthTimeoutMs : UInt64 := 5000

/-- Sanity cap of the session on a message's length. -/
def kMaxMessage : UInt32 := 32 * 1024 * 1024

def kChunkSize : Nat := 32 * 1024

structure ClientSession (κ ψ : Type) where
  net : κ
  shared : ψ
  authed : Bool
  lastSentSeq : UInt32
  rx : Bytes
  startMs : UInt64
  nextFrameAt : UInt64
  finished : Bool
  trace : List Event

namespace ClientSession

variable {κ ψ : Type} (W : World κ) (Sh : Shared ψ) (cfg : SessionConfig)

/-! ## Construction -/

def fps (cfg : SessionConfig) : Int32 := if cfg.streamFps > 0 then cfg.streamFps else 15

def frameIntervalMs (cfg : SessionConfig) : UInt64 := 1000 / UInt64.ofNat (fps cfg).toInt.toNat

def create (net : κ) (shared : ψ) : ClientSession κ ψ :=
  { net, shared
    authed := cfg.authToken.isEmpty
    lastSentSeq := 0xFFFFFFFF
    rx := []
    startMs := 0
    nextFrameAt := 0
    finished := false
    trace := [] }

def emit (s : ClientSession κ ψ) (e : Event) : ClientSession κ ψ :=
  { s with trace := s.trace ++ [e] }

/-! ## Sending -/

/-- `conn_->send`. -/
def send (s : ClientSession κ ψ) (data : Bytes) : Bool × ClientSession κ ψ :=
  let r := W.conn.send s.net data
  (r.1, { s with net := r.2 }.emit (.send data r.1))

/-- Sends a message whose fate nobody looks at. -/
def sendJson (s : ClientSession κ ψ) (type : MsgType) (json : Bytes) : ClientSession κ ψ :=
  (send W s (buildMessage type.code json 0)).2

def fileEntry (f : FileInfo) : Bytes :=
  utf8 "\x7B\"name\":\"" ++ Mjson.escape f.name ++ utf8 "\",\"size\":" ++
    utf8 (toString f.size.toNat) ++ utf8 ",\"mtime\":" ++ utf8 (toString f.mtime.toNat) ++
    utf8 "\x7D"

/-- The FILE_LIST_RESP body. -/
def fileListJson (files : List FileInfo) : Bytes :=
  utf8 "[" ++ (utf8 ",").intercalate (files.map fileEntry) ++ utf8 "]"

def sendFileList (s : ClientSession κ ψ) : ClientSession κ ψ :=
  let r := Sh.list s.shared
  sendJson W ({ s with shared := r.2 }.emit .list) .FileListResp (fileListJson r.1)

/-- One FILE_DATA message: index, count, one byte of name length, the name and
the bytes of the chunk. -/
def buildChunk (name : Bytes) (total idx : UInt32) (chunk : Bytes) : Bytes :=
  let pl := putU32 [] idx
  let pl := putU32 pl total
  let pl := pl ++ [UInt8.ofNat name.length]
  let pl := pl ++ name
  buildMessage MsgType.FileData.code (pl ++ chunk) 0

/-- The chunk loop; a failed send ends it. -/
def sendChunks (name bytes : Bytes) (total : UInt32) :
    List Nat → ClientSession κ ψ → ClientSession κ ψ
  | [], s => s
  | idx :: rest, s =>
    let chunk := (bytes.drop (idx * kChunkSize)).take kChunkSize
    let r := send W s (buildChunk name total (UInt32.ofNat idx) chunk)
    if r.1 then sendChunks name bytes total rest r.2 else r.2

/-- Number of chunks of a read result: none if it failed or is empty. -/
def chunkCount : Option Bytes → UInt32
  | none => 0
  | some bytes =>
    if bytes.isEmpty then 0 else UInt32.ofNat ((bytes.length + kChunkSize - 1) / kChunkSize)

def sendFile (s : ClientSession κ ψ) (name : Bytes) : ClientSession κ ψ :=
  if name.length > 255 then s
  else
    let r := Sh.read s.shared name
    let s := { s with shared := r.2 }.emit (.read name)
    let total := chunkCount r.1
    -- one empty chunk stands for "not found" and for an empty file
    if total = 0 then (send W s (buildChunk name total 0 [])).2
    else sendChunks W name (r.1.getD []) total (List.range total.toNat) s

def frameMessage (f : Frame) : Bytes :=
  buildVideoFrame f.seq f.width.toUInt32 f.height.toUInt32 f.tsMs f.jpeg

def sendFrameIfNew (s : ClientSession κ ψ) : Bool × ClientSession κ ψ :=
  let r := Sh.latest s.shared
  let s := { s with shared := r.2 }.emit .latest
  match r.1 with
  | none => (true, s)
  | some f =>
    if f.jpeg.isEmpty then (true, s)
    else if f.seq = s.lastSentSeq then (true, s)
    else send W { s with lastSentSeq := f.seq } (frameMessage f)

/-! ## Dispatching -/

/-- The command a SERVO_CMD body stands for. -/
def servoCommand (body : Bytes) : Command :=
  let mode := (Mjson.getString body (utf8 "mode")).getD (utf8 "step")
  { Command.default with
    type := if mode = utf8 "abs" then .ServoAbs else .ServoStep
    pan := (Mjson.getNumber body (utf8 "pan")).getD (.fin 0)
    tilt := (Mjson.getNumber body (utf8 "tilt")).getD (.fin 0) }

/-- The command a MODE_CMD body stands for. -/
def modeCommand (body : Bytes) : Command :=
  { Command.default with
    type := .SetMode
    autoTrack := (Mjson.getBool body (utf8 "autoTrack")).getD true }

def pushCommand (s : ClientSession κ ψ) (c : Command) : ClientSession κ ψ :=
  { s with shared := Sh.push s.shared c }.emit (.push c)

def deleteJson (name : Bytes) (ok : Bool) : Bytes :=
  utf8 "\x7B\"name\":\"" ++ Mjson.escape name ++ utf8 "\",\"ok\":" ++
    (if ok then utf8 "true" else utf8 "false") ++ utf8 "\x7D"

def deleteFile (s : ClientSession κ ψ) (body : Bytes) : ClientSession κ ψ :=
  match Mjson.getString body (utf8 "name") with
  | none => sendJson W s .FileDeleteResp (deleteJson [] false)
  | some name =>
    let r := Sh.remove s.shared name
    sendJson W ({ s with shared := r.2 }.emit (.remove name)) .FileDeleteResp
      (deleteJson name r.1)

def takeSnapshot (s : ClientSession κ ψ) : ClientSession κ ψ :=
  let r := Sh.latest s.shared
  let s := { s with shared := r.2 }.emit .latest
  match r.1 with
  | none => s
  | some f =>
    if f.mat.isEmpty then s
    else { s with shared := Sh.snapshot s.shared f.mat }.emit .snapshot

def handleMessage (s : ClientSession κ ψ) (type : UInt16) (body : Bytes) : ClientSession κ ψ :=
  let s := s.emit (.message type body)
  match MsgType.ofCode type with
  | some .ServoCmd => pushCommand Sh s (servoCommand body)
  | some .ModeCmd => pushCommand Sh s (modeCommand body)
  | some .FileListReq => sendFileList W Sh s
  | some .FileGetReq =>
    match Mjson.getString body (utf8 "name") with
    | none => s
    | some name => sendFile W Sh s name
  | some .FileDeleteReq => deleteFile W Sh s body
  | some .SnapshotReq => sendFileList W Sh (takeSnapshot Sh s)
  -- HELLO only logs the role; HEARTBEAT and anything else is ignored
  | _ => s

/-- The body of the message loop: before authentication only a HELLO with the
right token gets through. The flag says whether the loop goes on. -/
def onMessage (s : ClientSession κ ψ) (m : Message) : ClientSession κ ψ × Bool :=
  if s.authed then (handleMessage W Sh s m.type m.payload, true)
  else if m.type ≠ MsgType.Hello.code then (s, false)
  else if Auth.helloAuthorized cfg.authToken m.payload then
    (handleMessage W Sh ({ s with authed := true }.emit .authenticated) m.type m.payload, true)
  else (s, false)

/-- `readAndDispatch` behind a successful read. -/
def dispatch (s : ClientSession κ ψ) (chunk : Bytes) : Bool × ClientSession κ ψ :=
  let s := { s with rx := s.rx ++ chunk }
  let r := dispatchLoop kMaxMessage (onMessage W Sh cfg) (fun s _ => s) s.rx (s.rx.length + 1) 0 s
  match r.2 with
  | none => (false, r.1)
  | some off => (true, { r.1 with rx := r.1.rx.drop off })

def readAndDispatch (s : ClientSession κ ψ) : Bool × ClientSession κ ψ :=
  let r := W.conn.recv s.net 8192
  let s := { s with net := r.2 }.emit (.recv r.1)
  match r.1 with
  | .ok [] => (false, s)
  | .error e => (e == .EINTR || e == .EAGAIN || e == .EWOULDBLOCK, s)
  | .ok (x :: b) => dispatch W Sh cfg s (x :: b)

/-! ## The run -/

/-- Leaving the loop: `conn_->close()` and `finished_`. -/
def finish (s : ClientSession κ ψ) : ClientSession κ ψ :=
  { s with net := W.conn.close s.net, finished := true }.emit .close

/-- The HELLO the session advertises. -/
def helloJson (cfg : SessionConfig) : Bytes :=
  utf8 "\x7B\"role\":\"terminal\",\"ver\":1,\"auth\":" ++
    (if cfg.authToken.isEmpty then utf8 "false" else utf8 "true") ++ utf8 "\x7D"

/-- `run` up to the loop. -/
def start (net : κ) (shared : ψ) : ClientSession κ ψ :=
  let s := create cfg net shared
  let h := W.conn.handshake s.net
  let s := { s with net := h.2 }
  if h.1 then
    let s := sendJson W s .Hello (helloJson cfg)
    let t := W.nowMs s.net
    { s with net := t.2, startMs := t.1 }
  else finish W s

/-- The test at the head of the loop; `none` leaves it. -/
def timeLeft (s : ClientSession κ ψ) : Bool × ClientSession κ ψ :=
  if s.authed then (true, s)
  else
    let t := W.nowMs s.net
    (!(t.1 - s.startMs > kAuthTimeoutMs), { s with net := t.2 })

/-- The timeout given to `poll`. -/
def pollTimeout (s : ClientSession κ ψ) (now : UInt64) : Int32 :=
  if s.authed then
    let timeout := if s.nextFrameAt > now then (s.nextFrameAt - now).toUInt32.toInt32 else 0
    if timeout > 50 then 50 else timeout
  else 50

/-- The loop from its head to the call of `poll`; `none` leaves it. -/
def toPoll (s : ClientSession κ ψ) : Option Int32 × ClientSession κ ψ :=
  let st := W.stopped s.net
  let s := { s with net := st.2 }
  if st.1 then (none, s)
  else
    let a := timeLeft W s
    if a.1 then
      let t := W.nowMs a.2.net
      (some (pollTimeout a.2 t.1), { a.2 with net := t.2 })
    else (none, a.2)

/-- The frame timer at the end of an iteration; the flag says whether the loop
goes on. -/
def frameTick (s : ClientSession κ ψ) : Bool × ClientSession κ ψ :=
  if s.authed then
    let t := W.nowMs s.net
    let s := { s with net := t.2 }
    if t.1 ≥ s.nextFrameAt then
      let r := sendFrameIfNew W Sh s
      if r.1 then
        let t := W.nowMs r.2.net
        (true, { r.2 with net := t.2, nextFrameAt := t.1 + frameIntervalMs cfg })
      else (false, r.2)
    else (true, s)
  else (true, s)

/-- Reading, and the frame timer unless the read ends the session. -/
def readAndTick (s : ClientSession κ ψ) : Bool × ClientSession κ ψ :=
  let r := readAndDispatch W Sh cfg s
  if r.1 then frameTick W Sh cfg r.2 else r

/-- An iteration behind `poll`; the flag says whether the loop goes on. -/
def afterPoll (s : ClientSession κ ψ) : PollResult → Bool × ClientSession κ ψ
  | .interrupted => (true, s)
  | .failed => (false, s)
  | .timedOut => frameTick W Sh cfg s
  | .ready fault readable =>
    if fault then (false, s)
    else if readable then readAndTick W Sh cfg s
    else frameTick W Sh cfg s

/-- Going on or leaving the loop. -/
def conclude (r : Bool × ClientSession κ ψ) : ClientSession κ ψ :=
  if r.1 then r.2 else finish W r.2

/-- One iteration of the loop; nothing once it has been left. -/
def loopStep (s : ClientSession κ ψ) : ClientSession κ ψ :=
  if s.finished then s
  else
    match toPoll W s with
    | (none, s) => finish W s
    | (some timeout, s) =>
      let p := W.poll s.net timeout
      conclude W (afterPoll W Sh cfg { s with net := p.2 } p.1)

/-- The state in which an iteration calls `readAndDispatch`, if it gets there. -/
def reading (s : ClientSession κ ψ) : Option (ClientSession κ ψ) :=
  if s.finished then none
  else
    match toPoll W s with
    | (none, _) => none
    | (some timeout, s) =>
      let p := W.poll s.net timeout
      if p.1 = .ready false true then some { s with net := p.2 } else none

/-- `run` after `n` iterations of its loop. -/
def run (net : κ) (shared : ψ) : Nat → ClientSession κ ψ
  | 0 => start W cfg net shared
  | n + 1 => loopStep W Sh cfg (run net shared n)

/-! ## Parts of an iteration -/

/-- The state in which `readAndDispatch` looks at what `recv` returned. -/
def afterRecv (s : ClientSession κ ψ) : ClientSession κ ψ :=
  { s with net := (W.conn.recv s.net 8192).2 }.emit (.recv (W.conn.recv s.net 8192).1)

theorem readAndDispatch_eq (s : ClientSession κ ψ) :
    readAndDispatch W Sh cfg s =
      match (W.conn.recv s.net 8192).1 with
      | .ok [] => (false, afterRecv W s)
      | .error e => (e == .EINTR || e == .EAGAIN || e == .EWOULDBLOCK, afterRecv W s)
      | .ok (x :: b) => dispatch W Sh cfg (afterRecv W s) (x :: b) := rfl

/-- Up to `poll` only the connection's side changes. -/
theorem toPoll_eq (s : ClientSession κ ψ) : ∃ k, (toPoll W s).2 = { s with net := k } := by
  unfold toPoll timeLeft
  simp only
  split
  · exact ⟨_, rfl⟩
  · split
    · split <;> exact ⟨_, rfl⟩
    · split <;> exact ⟨_, rfl⟩

theorem reading_eq {s t : ClientSession κ ψ} (h : reading W s = some t) :
    s.finished = false ∧ ∃ k, t = { s with net := k } := by
  unfold reading at h
  split at h
  · cases h
  · rename_i hf
    refine ⟨by simpa using hf, ?_⟩
    obtain ⟨k, hk⟩ := toPoll_eq W s
    rcases hp : toPoll W s with ⟨_ | timeout, u⟩
    · rw [hp] at h
      cases h
    · rw [hp] at h hk
      simp only at h hk
      split at h
      · cases h
        exact ⟨_, by rw [hk]⟩
      · cases h

/-! ## What handling a message can do -/

/-- One elementary action of `handleMessage`: a reply, never a video frame,
whatever comes of it, or an operation on what is shared. -/
inductive Act (s : ClientSession κ ψ) : ClientSession κ ψ → Prop where
  | reply (m : Message) (h : m.type ≠ MsgType.VideoFrame.code) : Act s (send W s m.wire).2
  | shared (x : ψ) (e : Event) (h : e.isShared = true) : Act s ({ s with shared := x }.emit e)

/-- Any number of actions. -/
abbrev Acts : ClientSession κ ψ → ClientSession κ ψ → Prop := Relation.ReflTransGen (Act W)

theorem sendJson_acts (s : ClientSession κ ψ) (t : MsgType) (json : Bytes) (h : t ≠ .VideoFrame) :
    Acts W s (sendJson W s t json) := by
  have ht : t.code ≠ MsgType.VideoFrame.code := by cases t <;> simp_all <;> decide
  exact .single (.reply ⟨t.code, 0, json⟩ ht)

theorem sendFileList_acts (s : ClientSession κ ψ) : Acts W s (sendFileList W Sh s) := by
  refine .head (.shared (Sh.list s.shared).2 .list rfl) ?_
  exact sendJson_acts W _ .FileListResp _ (by decide)

theorem sendChunk_act (s : ClientSession κ ψ) (name : Bytes) (total idx : UInt32) (chunk : Bytes) :
    Act W s (send W s (buildChunk name total idx chunk)).2 :=
  .reply ⟨MsgType.FileData.code, 0, _⟩ (show MsgType.FileData.code ≠ _ by decide)

theorem sendChunks_acts (name bytes : Bytes) (total : UInt32) (l : List Nat)
    (s : ClientSession κ ψ) : Acts W s (sendChunks W name bytes total l s) := by
  induction l generalizing s with
  | nil => exact .refl
  | cons idx l ih =>
    unfold sendChunks
    simp only
    split
    · exact .head (sendChunk_act W s _ _ _ _) (ih _)
    · exact .single (sendChunk_act W s _ _ _ _)

theorem sendFile_acts (s : ClientSession κ ψ) (name : Bytes) :
    Acts W s (sendFile W Sh s name) := by
  unfold sendFile
  split
  · exact .refl
  · refine .head (.shared (Sh.read s.shared name).2 (.read name) rfl) ?_
    simp only
    split
    · exact .single (sendChunk_act W _ _ _ _ _)
    · exact sendChunks_acts W _ _ _ _ _

theorem deleteFile_acts (s : ClientSession κ ψ) (body : Bytes) :
    Acts W s (deleteFile W Sh s body) := by
  unfold deleteFile
  split
  · exact sendJson_acts W _ _ _ (by decide)
  · rename_i name _
    refine .head (.shared (Sh.remove s.shared name).2 (.remove name) rfl) ?_
    exact sendJson_acts W _ _ _ (by decide)

theorem takeSnapshot_acts (s : ClientSession κ ψ) : Acts W s (takeSnapshot Sh s) := by
  have hl : Act W s ({ s with shared := (Sh.latest s.shared).2 }.emit .latest) :=
    .shared _ .latest rfl
  unfold takeSnapshot
  simp only
  split
  · exact .single hl
  · split
    · exact .single hl
    · exact .head hl (.single (.shared _ .snapshot rfl))

/-- **Handling a message** is announcing it and then a sequence of replies and
shared operations. -/
theorem handleMessage_acts (s : ClientSession κ ψ) (type : UInt16) (body : Bytes) :
    Acts W (s.emit (.message type body)) (handleMessage W Sh s type body) := by
  unfold handleMessage
  simp only
  split
  · exact .single (.shared _ (.push _) rfl)
  · exact .single (.shared _ (.push _) rfl)
  · exact sendFileList_acts W Sh _
  · split
    · exact .refl
    · exact sendFile_acts W Sh _ _
  · exact deleteFile_acts W Sh _ _
  · exact (takeSnapshot_acts W Sh _).trans (sendFileList_acts W Sh _)
  · exact .refl

/-- What no action touches, and what it may add to the trace. -/
structure Kept (s s' : ClientSession κ ψ) : Prop where
  authed : s'.authed = s.authed
  rx : s'.rx = s.rx
  startMs : s'.startMs = s.startMs
  nextFrameAt : s'.nextFrameAt = s.nextFrameAt
  finished : s'.finished = s.finished
  trace : ∃ t, s'.trace = s.trace ++ t ∧ ∀ e ∈ t, e.isSend = true ∨ e.isShared = true

theorem Kept.refl (s : ClientSession κ ψ) : Kept s s :=
  ⟨rfl, rfl, rfl, rfl, rfl, [], by simp, by simp⟩

theorem Kept.trans {s₁ s₂ s₃ : ClientSession κ ψ} (h : Kept s₁ s₂) (h' : Kept s₂ s₃) :
    Kept s₁ s₃ := by
  obtain ⟨t, ht, hall⟩ := h.trace
  obtain ⟨t', ht', hall'⟩ := h'.trace
  refine ⟨h'.authed.trans h.authed, h'.rx.trans h.rx, h'.startMs.trans h.startMs,
    h'.nextFrameAt.trans h.nextFrameAt, h'.finished.trans h.finished, t ++ t', ?_, ?_⟩
  · rw [ht', ht, List.append_assoc]
  · intro e he
    rcases List.mem_append.mp he with he | he
    · exact hall e he
    · exact hall' e he

theorem Act.kept {s s' : ClientSession κ ψ} (h : Act W s s') : Kept s s' := by
  cases h with
  | reply m hm =>
    refine ⟨rfl, rfl, rfl, rfl, rfl, [.send m.wire (W.conn.send s.net m.wire).1], rfl, ?_⟩
    intro e he
    rw [List.mem_singleton.mp he]
    exact .inl rfl
  | shared x e he =>
    refine ⟨rfl, rfl, rfl, rfl, rfl, [e], rfl, ?_⟩
    intro e' he'
    rw [List.mem_singleton.mp he']
    exact .inr he

theorem Acts.kept {s s' : ClientSession κ ψ} (h : Acts W s s') : Kept s s' := by
  induction h with
  | refl => exact .refl _
  | tail _ hact ih => exact ih.trans (hact.kept W)

/-- Actions read nothing and announce no message. -/
theorem Kept.observed {s s' : ClientSession κ ψ} (h : Kept s s') :
    received s'.trace = received s.trace ∧ handled s'.trace = handled s.trace := by
  obtain ⟨t, ht, hall⟩ := h.trace
  have hr : received t = [] := by
    refine List.flatMap_eq_nil_iff.mpr ?_
    intro e he
    cases e <;> first | rfl | (rcases hall _ he with h | h <;> cases h)
  have hh : handled t = [] := by
    refine List.filterMap_eq_nil_iff.mpr ?_
    intro e he
    cases e <;> first | rfl | (rcases hall _ he with h | h <;> cases h)
  rw [ht, received_append, handled_append, hr, hh]
  simp

/-- A property of the connection that replies preserve survives any actions. -/
theorem Acts.net {I : κ → Prop}
    (hsend : ∀ k (m : Message), m.type ≠ MsgType.VideoFrame.code → I k → I (W.conn.send k m.wire).2)
    {s s' : ClientSession κ ψ} (h : Acts W s s') (hs : I s.net) : I s'.net := by
  induction h with
  | refl => exact hs
  | tail _ hact ih =>
    cases hact with
    | reply m hm => exact hsend _ m hm ih
    | shared x e he => exact ih

/-! ## Invariants of the connection -/

/-- `I` is kept by everything the session does to its connection short of
reading, except that a video frame that fails leaves only `F`; `F` is what is
left once the loop has ended. -/
structure NetInvariant (I F : κ → Prop) : Prop where
  weaken : ∀ k, I k → F k
  reply : ∀ k (m : Message), m.type ≠ MsgType.VideoFrame.code → I k → I (W.conn.send k m.wire).2
  frame : ∀ k (f : Frame), I k →
    ((W.conn.send k (frameMessage f)).1 = true → I (W.conn.send k (frameMessage f)).2) ∧
      F (W.conn.send k (frameMessage f)).2
  nowMs : ∀ k, I k → I (W.nowMs k).2
  stopped : ∀ k, I k → I (W.stopped k).2
  poll : ∀ k timeout, I k → I (W.poll k timeout).2
  close : ∀ k, F k → F (W.conn.close k)

/-- `I` while the loop runs, `F` afterwards. -/
def NetHolds (I F : κ → Prop) (s : ClientSession κ ψ) : Prop :=
  F s.net ∧ (s.finished = false → I s.net)

section NetInvariant

variable {W} {I F : κ → Prop} (h : NetInvariant W I F)
include h

theorem NetInvariant.finish {s : ClientSession κ ψ} (hs : F s.net) : NetHolds I F (finish W s) :=
  ⟨h.close _ hs, fun hf => by cases hf⟩

theorem NetInvariant.conclude {r : Bool × ClientSession κ ψ}
    (hr : (r.1 = true → I r.2.net) ∧ F r.2.net) : NetHolds I F (conclude W r) := by
  unfold ClientSession.conclude
  split
  · exact ⟨hr.2, fun _ => hr.1 ‹_›⟩
  · exact h.finish hr.2

theorem NetInvariant.onMessage (s : ClientSession κ ψ) (m : Message) (hs : I s.net) :
    I (onMessage W Sh cfg s m).1.net := by
  unfold ClientSession.onMessage
  split
  · exact Acts.net W h.reply (handleMessage_acts W Sh s m.type m.payload) hs
  · split
    · exact hs
    · split
      · refine Acts.net W h.reply (handleMessage_acts W Sh
          ({ s with authed := true }.emit .authenticated) m.type m.payload) ?_
        exact hs
      · exact hs

theorem NetInvariant.dispatch {s : ClientSession κ ψ} (chunk : Bytes) (hs : I s.net) :
    I (dispatch W Sh cfg s chunk).2.net := by
  have hloop := dispatchLoop_eq kMaxMessage (ClientSession.onMessage W Sh cfg) (fun s _ => s)
    (s.rx ++ chunk) ((s.rx ++ chunk).length + 1) 0 { s with rx := s.rx ++ chunk } (Nat.zero_le _)
    (by omega)
  have hr := dispatched_induction (ClientSession.onMessage W Sh cfg) (fun s _ => s)
    (fun s m hs => h.onMessage Sh cfg s m hs) (fun _ _ hs => hs) (s.rx ++ chunk)
    { s with rx := s.rx ++ chunk } (messages kMaxMessage ((s.rx ++ chunk).drop 0)) hs
  rw [← hloop] at hr
  unfold ClientSession.dispatch
  simp only
  split <;> exact hr

/-- A read that reports the end of the stream ends the loop, so it need only
leave what is left afterwards. -/
theorem NetInvariant.readAndDispatch {s : ClientSession κ ψ}
    (hend : F (W.conn.recv s.net 8192).2)
    (hread : (W.conn.recv s.net 8192).1 ≠ .ok [] → I (W.conn.recv s.net 8192).2) :
    ((readAndDispatch W Sh cfg s).1 = true → I (readAndDispatch W Sh cfg s).2.net) ∧
      F (readAndDispatch W Sh cfg s).2.net := by
  rw [readAndDispatch_eq]
  rcases hr : (W.conn.recv s.net 8192).1 with e | ⟨_ | ⟨x, b⟩⟩
  · exact ⟨fun _ => hread (by rw [hr]; simp), hend⟩
  · exact ⟨fun hf => absurd hf Bool.false_ne_true, hend⟩
  · have hdispatch := h.dispatch Sh cfg (s := afterRecv W s) (x :: b) (hread (by rw [hr]; simp))
    exact ⟨fun _ => hdispatch, h.weaken _ hdispatch⟩

theorem NetInvariant.sendFrameIfNew {s : ClientSession κ ψ} (hs : I s.net) :
    ((sendFrameIfNew W Sh s).1 = true → I (sendFrameIfNew W Sh s).2.net) ∧
      F (sendFrameIfNew W Sh s).2.net := by
  have hkeep : (true = true → I s.net) ∧ F s.net := ⟨fun _ => hs, h.weaken _ hs⟩
  unfold ClientSession.sendFrameIfNew
  simp only
  split
  · exact hkeep
  · split
    · exact hkeep
    · split
      · exact hkeep
      · exact h.frame s.net _ hs

theorem NetInvariant.frameTick {s : ClientSession κ ψ} (hs : I s.net) :
    ((frameTick W Sh cfg s).1 = true → I (frameTick W Sh cfg s).2.net) ∧
      F (frameTick W Sh cfg s).2.net := by
  have hkeep : ∀ {k : κ}, I k → (true = true → I k) ∧ F k := fun hk => ⟨fun _ => hk, h.weaken _ hk⟩
  unfold ClientSession.frameTick
  split
  · simp only
    split
    · have hframe := h.sendFrameIfNew Sh (s := { s with net := (W.nowMs s.net).2 }) (h.nowMs _ hs)
      split
      · exact hkeep (h.nowMs _ (hframe.1 ‹_›))
      · exact ⟨fun hf => absurd hf Bool.false_ne_true, hframe.2⟩
    · exact hkeep (h.nowMs _ hs)
  · exact hkeep hs

theorem NetInvariant.toPoll {s : ClientSession κ ψ} (hs : I s.net) : I (toPoll W s).2.net := by
  unfold ClientSession.toPoll ClientSession.timeLeft
  simp only
  split
  · exact h.stopped _ hs
  · split
    · split
      · exact h.nowMs _ (h.stopped _ hs)
      · exact h.stopped _ hs
    · split
      · exact h.nowMs _ (h.nowMs _ (h.stopped _ hs))
      · exact h.nowMs _ (h.stopped _ hs)

/-- An iteration keeps the invariant if its read does, or if its read leaves
what is left afterwards and reports the end of the stream. -/
theorem NetInvariant.loopStep_of_read {s : ClientSession κ ψ} (hs : NetHolds I F s)
    (hrecv : ∀ t, reading W s = some t → I t.net → F (W.conn.recv t.net 8192).2 ∧
      ((W.conn.recv t.net 8192).1 ≠ .ok [] → I (W.conn.recv t.net 8192).2)) :
    NetHolds I F (loopStep W Sh cfg s) := by
  unfold ClientSession.loopStep
  unfold reading at hrecv
  split
  · exact hs
  · rename_i hf
    have hpoll := h.toPoll (hs.2 (by simpa using hf))
    rw [if_neg hf] at hrecv
    rcases hp : ClientSession.toPoll W s with ⟨_ | timeout, u⟩
    · rw [hp] at hpoll
      exact h.finish (h.weaken _ hpoll)
    · rw [hp] at hpoll hrecv
      simp only at hrecv ⊢
      have hu := h.poll u.net timeout hpoll
      refine h.conclude ?_
      have hkeep : ∀ b, (b = true → I (W.poll u.net timeout).2) ∧ F (W.poll u.net timeout).2 :=
        fun _ => ⟨fun _ => hu, h.weaken _ hu⟩
      cases hres : (W.poll u.net timeout).1 with
      | interrupted => exact hkeep true
      | failed => exact hkeep false
      | timedOut => exact h.frameTick Sh cfg hu
      | ready fault readable =>
        unfold ClientSession.afterPoll
        cases fault with
        | true => exact hkeep false
        | false =>
          cases readable with
          | false => exact h.frameTick Sh cfg hu
          | true =>
            obtain ⟨hend, hread⟩ := hrecv _ (if_pos hres) hu
            have hafter := h.readAndDispatch Sh cfg (s := { u with net := (W.poll u.net timeout).2 })
              hend hread
            simp only [Bool.false_eq_true, if_false, if_true]
            unfold ClientSession.readAndTick
            simp only
            split
            · exact h.frameTick Sh cfg (hafter.1 ‹_›)
            · exact hafter

/-- An iteration keeps the invariant if its read does. -/
theorem NetInvariant.loopStep {s : ClientSession κ ψ} (hs : NetHolds I F s)
    (hrecv : ∀ t, reading W s = some t → I t.net → I (W.conn.recv t.net 8192).2) :
    NetHolds I F (loopStep W Sh cfg s) := by
  refine h.loopStep_of_read Sh cfg hs ?_
  intro t ht hI
  have hI' := hrecv t ht hI
  exact ⟨h.weaken _ hI', fun _ => hI'⟩

/-- A session begins its loop with what its handshake establishes. -/
theorem NetInvariant.start {net : κ} (shared : ψ)
    (hup : (W.conn.handshake net).1 = true → I (W.conn.handshake net).2)
    (hdown : (W.conn.handshake net).1 = false → F (W.conn.handshake net).2) :
    NetHolds I F (start W cfg net shared) := by
  unfold ClientSession.start
  simp only
  split
  · rename_i hok
    have hhello := (sendJson_acts W { create cfg net shared with net := (W.conn.handshake net).2 }
      .Hello (helloJson cfg) (by decide)).net W h.reply (hup hok)
    have hnow := h.nowMs _ hhello
    exact ⟨h.weaken _ hnow, fun _ => hnow⟩
  · rename_i hok
    exact h.finish (hdown (by simpa [create] using hok))

end NetInvariant

end ClientSession

end FaceTracking
