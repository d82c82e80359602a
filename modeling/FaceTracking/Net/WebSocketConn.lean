import FaceTracking.Net.WebSocketProto
import FaceTracking.Net.Conn

/-!
# The WebSocket carrier

`WebSocketConn` turns a byte stream into a connection: the HTTP upgrade, the
de-framing of what the client sends and the framing of what the session sends.
Incoming bytes pass through two buffers, `rx` (not yet de-framed) and `app`
(de-framed, not yet handed out).

`drainFrames_eq` is the one fact about the drain loop that later results use:
it says what a call does in terms of `Ws.content`.
-/

namespace FaceTracking

open Lib

namespace WebSocketConn

/-- The connection's state over a stream in state `stream`. -/
structure State (β : Type) where
  stream : β
  /-- Peer close seen or sent: `recv` now reports the end of the stream. -/
  closed : Bool
  /-- Raw bytes not yet de-framed. -/
  rx : Bytes
  /-- De-framed bytes awaiting `recv`. -/
  app : Bytes

def State.fresh {β : Type} (s : β) : State β := ⟨s, false, [], []⟩

def State.map {β γ : Type} (f : β → γ) (c : State β) : State γ :=
  ⟨f c.stream, c.closed, c.rx, c.app⟩

def crlf : Bytes := utf8 "\r\n"

/-- The blank line that ends a request's header block. -/
def crlf2 : Bytes := utf8 "\r\n\r\n"

/-! ## Header lookup -/

def toLower (c : UInt8) : UInt8 := if 0x41 ≤ c && c ≤ 0x5A then c + 0x20 else c

def isBlank (c : UInt8) : Bool := c == 0x20 || c == 0x09

/-- Value of an HTTP header, its name compared without case and anchored to the
start of a line; empty if absent. -/
def headerValue (headerBlock name : Bytes) : Bytes :=
  let lower := headerBlock.map toLower
  let key := name.map toLower
  let found :=
    if lower.take (key.length + 1) = key ++ [0x3A] then some 0
    else find? (crlf ++ key ++ [0x3A]) lower
  match found with
  | none => []
  | some pos =>
    let pos := if pos ≠ 0 then pos + 2 else pos
    let pos := pos + (key.length + 1)
    let stop := pos + (find? crlf (headerBlock.drop pos)).getD (headerBlock.length - pos)
    match (headerBlock.drop pos).findIdx? (fun c => !isBlank c) with
    | none => []
    | some a =>
      if pos + a ≥ stop then []
      else ((headerBlock.take stop).rdropWhile isBlank).drop (pos + a)

/-! ## Upgrade -/

section Stream

variable {β : Type} (S : IByteStream β)

/-- The read loop of `handshake`: bytes up to and past the blank line, `none`
where the source gives up. `fuel` bounds the number of reads; each of them adds
bytes towards the 16 KiB guard or was interrupted. -/
def readRequest : Nat → Bytes → β → Option Bytes × β
  | 0, _, s => (none, s)
  | fuel + 1, req, s =>
    if (find? crlf2 req).isSome then (some req, s)
    else if req.length > 16 * 1024 then (none, s)
    else
      match S.read s 2048 with
      | (.ok [], s) => (none, s)
      | (.ok (x :: b), s) => readRequest fuel (req ++ x :: b) s
      | (.error e, s) => if e = .EINTR then readRequest fuel req s else (none, s)

/-- Index of the first byte behind the blank line. -/
def bodyStart (req : Bytes) : Nat := (find? crlf2 req).getD 0 + 4

def response (key : Bytes) : Bytes :=
  utf8 "HTTP/1.1 101 Switching Protocols\r\n" ++ utf8 "Upgrade: websocket\r\n" ++
    utf8 "Connection: Upgrade\r\n" ++ utf8 "Sec-WebSocket-Accept: " ++ Ws.acceptKey key ++ crlf2

/-- The client key of a request; the header block keeps its trailing CRLF. -/
def requestKey (req : Bytes) : Bytes :=
  headerValue (req.take (bodyStart req - 2)) (utf8 "Sec-WebSocket-Key")

def handshake (fuel : Nat) (c : State β) : Bool × State β :=
  match S.handshake c.stream with
  | (false, s) => (false, { c with stream := s })
  | (true, s) =>
    match readRequest S fuel [] s with
    | (none, s) => (false, { c with stream := s })
    | (some req, s) =>
      if requestKey req = [] then (false, { c with stream := s })
      else
        let w := S.writeAll s (response (requestKey req))
        -- bytes behind the blank line are frames that came with the same read
        (w.1, { c with stream := w.2, rx := c.rx ++ req.drop (bodyStart req) })

/-! ## Frames -/

def sendControl (s : β) (opcode : UInt8) (data : Bytes) : Bool × β :=
  S.writeAll s (Ws.encodeFrame [] opcode data)

/-- The switch of `drainFrames`. -/
def onFrame (c : State β) (fr : Ws.Frame) : State β :=
  if fr.opcode = Ws.kOpContinuation ∨ fr.opcode = Ws.kOpText ∨ fr.opcode = Ws.kOpBinary then
    { c with app := c.app ++ fr.payload }
  else if fr.opcode = Ws.kOpPing then
    { c with stream := (sendControl S c.stream Ws.kOpPong fr.payload).2 }
  else if fr.opcode = Ws.kOpPong then c
  else if fr.opcode = Ws.kOpClose then
    { c with stream := (sendControl S c.stream Ws.kOpClose fr.payload).2, closed := true }
  else c

/-- The loop of `drainFrames`; returns the offset it reached. -/
def drainLoop : Nat → Nat → State β → Nat × State β
  | 0, off, c => (off, c)
  | fuel + 1, off, c =>
    match Ws.decodeFrame (c.rx.drop off) Ws.kMaxPayload true with
    | .more => (off, c)
    | .bad => (off, { c with closed := true })
    | .item fr consumed =>
      let c := onFrame S c fr
      if c.closed then (off + consumed, c) else drainLoop fuel (off + consumed) c

/-- De-frame as many complete frames as `rx` holds: a frame takes at least one
byte, so their number is bounded by the length of `rx`. -/
def drainFrames (c : State β) : State β :=
  let r := drainLoop S (c.rx.length + 1) 0 c
  { r.2 with rx := r.2.rx.drop r.1 }

/-- Hand out at most `cap` staged bytes. -/
def serve (c : State β) (cap : Nat) : ReadResult × State β :=
  (.ok (c.app.take cap), { c with app := c.app.drop cap })

def recv (c : State β) (cap : Nat) : ReadResult × State β :=
  if c.app ≠ [] then serve c cap
  else if c.closed then (.ok [], c)
  else
    match S.read c.stream 8192 with
    | (.ok [], s) => (.ok [], { c with stream := s })
    | (.error e, s) => (.error e, { c with stream := s })
    | (.ok (x :: b), s) =>
      let c := drainFrames S { c with stream := s, rx := c.rx ++ x :: b }
      if c.app ≠ [] then serve c cap
      else if c.closed then (.ok [], c)
      -- only control frames or a partial frame: retry later
      else (.error .EAGAIN, c)

/-- One SEC1 frame becomes one binary message. -/
def send (c : State β) (data : Bytes) : Bool × State β :=
  let w := S.writeAll c.stream (Ws.encodeFrame [] Ws.kOpBinary data)
  (w.1, { c with stream := w.2 })

def close (c : State β) : State β := { c with stream := S.close c.stream }

theorem recv_length_le (c : State β) (cap : Nat) (b : Bytes) (h : (recv S c cap).1 = .ok b) :
    b.length ≤ cap := by
  have hserve : ∀ c : State β, (serve c cap).1 = .ok b → b.length ≤ cap := by
    intro c h
    cases h
    rw [List.length_take]
    omega
  have hnil : (Except.ok [] : ReadResult) = .ok b → b.length ≤ cap := by
    intro h
    cases h
    simp
  unfold recv at h
  split at h
  · exact hserve _ h
  · split at h
    · exact hnil h
    · split at h
      · exact hnil h
      · cases h
      · simp only at h
        split at h
        · exact hserve _ h
        · split at h
          · exact hnil h
          · cases h

end Stream

end WebSocketConn

/-- SEC1 in WebSocket messages over a byte stream. `fuel` bounds the reads of
the upgrade. -/
def WebSocketConn {β : Type} (S : IByteStream β) (fuel : Nat) : IConn (WebSocketConn.State β) where
  handshake := WebSocketConn.handshake S fuel
  recv := WebSocketConn.recv S
  send := WebSocketConn.send S
  close := WebSocketConn.close S
  recv_le := WebSocketConn.recv_length_le S

namespace WebSocketConn

variable {β : Type} (S : IByteStream β)

/-! ## What draining does -/

/-- What a frame makes the connection write. -/
def replyTo (f : Ws.Frame) : Option Bytes :=
  if f.opcode = Ws.kOpPing then some (Ws.encodeFrame [] Ws.kOpPong f.payload)
  else if f.opcode = Ws.kOpClose then some (Ws.encodeFrame [] Ws.kOpClose f.payload)
  else none

/-- The stream after the reply to a frame. -/
def answer (s : β) (f : Ws.Frame) : β :=
  match replyTo f with
  | some b => (S.writeAll s b).2
  | none => s

/-- A frame may be answered, close the connection and add its data. -/
theorem onFrame_eq (c : State β) (f : Ws.Frame) :
    onFrame S c f =
      { c with
        stream := answer S c.stream f
        closed := c.closed || Ws.isClose f
        app := c.app ++ Ws.dataOf [f] } := by
  unfold onFrame answer replyTo
  simp only [Ws.dataOf, Ws.isData, Ws.isClose, List.flatMap_cons, List.flatMap_nil, List.append_nil]
  by_cases hc : f.opcode = Ws.kOpContinuation
  · simp [hc, Ws.kOpContinuation, Ws.kOpPing, Ws.kOpClose]
  by_cases ht : f.opcode = Ws.kOpText
  · simp [ht, Ws.kOpText, Ws.kOpPing, Ws.kOpClose]
  by_cases hb : f.opcode = Ws.kOpBinary
  · simp [hb, Ws.kOpBinary, Ws.kOpPing, Ws.kOpClose]
  by_cases hi : f.opcode = Ws.kOpPing
  · simp [hi, sendControl, Ws.kOpContinuation, Ws.kOpText, Ws.kOpBinary, Ws.kOpPing, Ws.kOpClose]
  by_cases ho : f.opcode = Ws.kOpPong
  · simp [ho, Ws.kOpContinuation, Ws.kOpText, Ws.kOpBinary, Ws.kOpPing, Ws.kOpPong, Ws.kOpClose]
  by_cases hl : f.opcode = Ws.kOpClose
  · simp [hl, sendControl, Ws.kOpContinuation, Ws.kOpText, Ws.kOpBinary, Ws.kOpPing, Ws.kOpPong,
      Ws.kOpClose]
  · cases c
    simp [hc, ht, hb, hi, ho, hl]

/-- From an offset on, the drain loop takes what `Ws.content` finds there. -/
theorem drainLoop_eq (fuel off : Nat) (c : State β) (hc : c.closed = false)
    (hoff : off ≤ c.rx.length) (hfuel : c.rx.length - off < fuel) :
    drainLoop S fuel off c =
      (c.rx.length - (Ws.content (c.rx.drop off)).rest.length,
        { c with
          stream := (Ws.content (c.rx.drop off)).items.foldl (answer S) c.stream
          closed := (Ws.content (c.rx.drop off)).ending != .starved
          app := c.app ++ Ws.dataOf (Ws.content (c.rx.drop off)).items }) := by
  induction fuel generalizing off c with
  | zero => omega
  | succ fuel ih =>
    have hlen : c.rx.length - (c.rx.drop off).length = off := by rw [List.length_drop]; omega
    unfold drainLoop Ws.content
    cases hs : Ws.decodeFrame (c.rx.drop off) Ws.kMaxPayload true with
    | more =>
      rw [Ws.frames.scan_more Ws.isClose hs, hlen]
      cases c
      simp_all
    | bad =>
      rw [Ws.frames.scan_bad Ws.isClose hs, hlen]
      simp
    | item f n =>
      have hpos := Ws.frames.item_pos hs
      have hle := Ws.frames.item_le hs
      rw [List.length_drop] at hle
      have hrest : c.rx.length - ((c.rx.drop off).drop n).length = off + n := by
        rw [List.drop_drop, List.length_drop]
        omega
      simp only [onFrame_eq, hc, Bool.false_or]
      cases hcl : Ws.isClose f with
      | true =>
        rw [Ws.frames.scan_stop Ws.isClose hs hcl, hrest]
        simp
      | false =>
        rw [Ws.frames.scan_item Ws.isClose hs hcl]
        simp only [Bool.false_eq_true, if_false]
        rw [ih (off + n) _ rfl (by simp only; omega) (by simp only; omega)]
        simp [Ws.content, List.drop_drop, Ws.dataOf]

/-- **Draining.** The frames up to the first Close, violation or incomplete
frame are consumed: their replies written in order, their data staged, and the
connection marked closed unless it was the input that ran out. -/
theorem drainFrames_eq (c : State β) (hc : c.closed = false) :
    drainFrames S c =
      { stream := (Ws.content c.rx).items.foldl (answer S) c.stream
        closed := (Ws.content c.rx).ending != .starved
        rx := (Ws.content c.rx).rest
        app := c.app ++ Ws.dataOf (Ws.content c.rx).items } := by
  obtain ⟨pre, hpre⟩ := Ws.frames.rest_suffix Ws.isClose c.rx
  have hrest : c.rx.drop (c.rx.length - (Ws.content c.rx).rest.length) =
      (Ws.content c.rx).rest := by
    have hl := congrArg List.length hpre
    rw [List.length_append] at hl
    have hk : c.rx.length - (Ws.content c.rx).rest.length = pre.length := by
      unfold Ws.content
      omega
    rw [hk]
    conv => lhs; rw [← hpre]
    exact List.drop_left
  unfold drainFrames
  rw [drainLoop_eq S _ 0 c hc (Nat.zero_le _) (by omega)]
  simp only [List.drop_zero, hrest]

/-! ## What a read does -/

/-- What the stream gave stands behind the buffer, not yet drained. -/
def filled (c : State β) : State β :=
  { c with
    stream := (S.read c.stream 8192).2
    rx := c.rx ++ bytesOf (S.read c.stream 8192).1 }

/-- What `recv` returns behind `drainFrames`. -/
def handOut (c : State β) (cap : Nat) : ReadResult × State β :=
  if c.app ≠ [] then serve c cap
  else if c.closed then (.ok [], c)
  else (.error .EAGAIN, c)

theorem handOut_state (c : State β) (cap : Nat) :
    (handOut c cap).2 = { c with app := c.app.drop cap } := by
  unfold handOut
  split
  · rfl
  · rename_i hnil
    have happ : c.app = [] := by simpa using hnil
    obtain ⟨stream, closed, rx, app⟩ := c
    obtain rfl : app = [] := happ
    split <;> simp

theorem handOut_bytes (c : State β) (cap : Nat) :
    bytesOf (handOut c cap).1 = c.app.take cap := by
  unfold handOut
  split
  · rfl
  · rename_i hnil
    have happ : c.app = [] := by simpa using hnil
    rw [happ, List.take_nil]
    split <;> rfl

/-- **Reading.** Staged bytes are handed out, a closed connection is at its
end, a stream that gives nothing decides the result, and bytes are drained. -/
theorem recv_cases (c : State β) (cap : Nat) :
    (c.app ≠ [] ∧ recv S c cap = serve c cap) ∨
      (c.app = [] ∧ c.closed = true ∧ recv S c cap = (.ok [], c)) ∨
      (c.app = [] ∧ c.closed = false ∧ bytesOf (S.read c.stream 8192).1 = [] ∧
        recv S c cap = ((S.read c.stream 8192).1, filled S c)) ∨
      (c.app = [] ∧ c.closed = false ∧ bytesOf (S.read c.stream 8192).1 ≠ [] ∧
        recv S c cap = handOut (drainFrames S (filled S c)) cap) := by
  unfold recv filled
  by_cases ha : c.app ≠ []
  · exact .inl ⟨ha, if_pos ha⟩
  have hnil : c.app = [] := not_not.mp ha
  by_cases hc : c.closed = true
  · rw [if_neg ha, if_pos hc]
    exact .inr (.inl ⟨hnil, hc, rfl⟩)
  have hopen : c.closed = false := by simpa using hc
  rw [if_neg ha, if_neg hc]
  rcases S.read c.stream 8192 with ⟨e | ⟨_ | ⟨x, b⟩⟩, s⟩
  · exact .inr (.inr (.inl ⟨hnil, hopen, rfl, by simp⟩))
  · exact .inr (.inr (.inl ⟨hnil, hopen, rfl, by simp⟩))
  · exact .inr (.inr (.inr ⟨hnil, hopen, by simp, rfl⟩))

/-! ## What the upgrade does -/

/-- The request loop only reads. -/
theorem readRequest_keeps {I : β → Prop} (hread : ∀ s, I s → I (S.read s 2048).2) (fuel : Nat)
    (req : Bytes) {s : β} (h : I s) : I (readRequest S fuel req s).2 := by
  induction fuel generalizing req s with
  | zero => exact h
  | succ fuel ih =>
    have hnext := hread s h
    unfold readRequest
    split
    · exact h
    · split
      · exact h
      · generalize S.read s 2048 = r at hnext ⊢
        obtain ⟨e | ⟨_ | ⟨x, b⟩⟩, s'⟩ := r
        · simp only
          split
          · exact ih req hnext
          · exact hnext
        · exact hnext
        · exact ih _ hnext

/-- **Upgrading.** The stream's own handshake fails, there is no request with a
key, or the response is written. -/
theorem handshake_cases (fuel : Nat) (c : State β) :
    let s := (S.handshake c.stream).2
    let r := readRequest S fuel [] s
    ((S.handshake c.stream).1 = false ∧ handshake S fuel c = (false, { c with stream := s })) ∨
      handshake S fuel c = (false, { c with stream := r.2 }) ∨
      ∃ req, (S.handshake c.stream).1 = true ∧ r.1 = some req ∧ requestKey req ≠ [] ∧
        handshake S fuel c =
          ((S.writeAll r.2 (response (requestKey req))).1,
            { c with
              stream := (S.writeAll r.2 (response (requestKey req))).2
              rx := c.rx ++ req.drop (bodyStart req) }) := by
  intro s r
  unfold handshake
  rcases hs : S.handshake c.stream with ⟨_ | _, s'⟩
  · refine .inl ⟨rfl, ?_⟩
    simp only [s, hs]
  · have hr : r = readRequest S fuel [] s' := by simp only [r, s, hs]
    simp only
    rw [← hr]
    rcases r with ⟨_ | req, s''⟩
    · exact .inr (.inl rfl)
    · simp only
      by_cases hkey : requestKey req = []
      · rw [if_pos hkey]
        exact .inr (.inl rfl)
      · rw [if_neg hkey]
        exact .inr (.inr ⟨req, trivial, rfl, hkey, rfl⟩)

end WebSocketConn

end FaceTracking
