import FaceTracking.Lib.Bytes

/-!
# Byte streams and connections

The two interfaces below the session: `IByteStream`, the raw transport under
any framing, and `IConn`, the transport a session runs on. Both are records of
operations over a state type, so that every theorem about their users holds
for any implementation. `RawByteStream` is the plaintext implementation over a
kernel socket, whose answers come from scripts: what each `::recv` has to
offer and what each `::send` accepts.
-/

namespace FaceTracking

open Lib

inductive Errno where
  | EINTR
  | EAGAIN
  | EWOULDBLOCK
  | other (code : Nat)
deriving DecidableEq, Repr

/-- The outcome of a POSIX-style read: bytes (none of them for an orderly
shutdown) or an error. -/
abbrev ReadResult := Except Errno Bytes

/-- The raw transport below SEC1 and WebSocket framing. -/
structure IByteStream (β : Type) where
  handshake : β → Bool × β
  read : β → Nat → ReadResult × β
  writeAll : β → Bytes → Bool × β
  close : β → β
  /-- A read stays inside the caller's buffer. -/
  read_le : ∀ s cap b, (read s cap).1 = .ok b → b.length ≤ cap

/-- The transport a session runs on: a clean SEC1 byte stream in both
directions, one complete frame per `send`. -/
structure IConn (χ : Type) where
  handshake : χ → Bool × χ
  recv : χ → Nat → ReadResult × χ
  send : χ → Bytes → Bool × χ
  close : χ → χ
  /-- A read stays inside the caller's buffer. -/
  recv_le : ∀ s cap b, (recv s cap).1 = .ok b → b.length ≤ cap

/-- The bound holds of a connection that is one part of a larger state. -/
theorem IConn.recv_fst_le {χ ε : Type} (C : IConn χ) (k : χ × ε) (cap : Nat) (b : Bytes)
    (h : (C.recv k.1 cap).1 = .ok b) : b.length ≤ cap :=
  C.recv_le k.1 cap b h

/-! ## Sockets -/

/-- What the kernel answers to one `::send`. -/
inductive SendOutcome where
  /-- It takes up to `n + 1` of the bytes offered. -/
  | accept (n : Nat)
  | fail (e : Errno)
deriving DecidableEq, Repr

/-- One call of `sendAll`: the buffer it was given, how many of its bytes the
kernel accepted, and the answers still to come. -/
structure Write where
  msg : Bytes
  accepted : Nat
  left : List SendOutcome
deriving DecidableEq, Repr

/-- A connected socket: the answers to the coming `::recv` and `::send` calls,
and the record of what has been written. A script that has run out answers
with an error. -/
structure Socket where
  reads : List ReadResult
  sends : List SendOutcome
  writes : List Write
  closed : Bool
deriving DecidableEq

namespace Socket

/-- `::recv(fd, buf, cap)`. Bytes that do not fit stay in the kernel. -/
def recv (s : Socket) (cap : Nat) : ReadResult × Socket :=
  match s.reads with
  | [] => (.error .EAGAIN, s)
  | .error e :: rs => (.error e, { s with reads := rs })
  | .ok b :: rs =>
    if b.length ≤ cap then (.ok b, { s with reads := rs })
    else (.ok (b.take cap), { s with reads := .ok (b.drop cap) :: rs })

/-- The loop of `netutil::sendAll`: offer what is left until it is gone or a
call fails with anything but EINTR. Returns the result, the number of bytes
accepted and the remaining script. -/
def sendLoop : List SendOutcome → Bytes → Bool × Nat × List SendOutcome
  | outs, [] => (true, 0, outs)
  | [], _ :: _ => (false, 0, [])
  | .fail e :: outs, x :: data =>
    if e = .EINTR then sendLoop outs (x :: data) else (false, 0, outs)
  | .accept k :: outs, x :: data =>
    let n := min (k + 1) (x :: data).length
    let r := sendLoop outs ((x :: data).drop n)
    (r.1, n + r.2.1, r.2.2)

/-- `netutil::sendAll`. -/
def sendAll (s : Socket) (data : Bytes) : Bool × Socket :=
  let r := sendLoop s.sends data
  (r.1, { s with sends := r.2.2, writes := s.writes ++ [⟨data, r.2.1, r.2.2⟩] })

theorem recv_length_le (s : Socket) (cap : Nat) (b : Bytes) (h : (s.recv cap).1 = .ok b) :
    b.length ≤ cap := by
  unfold recv at h
  split at h
  · cases h
  · cases h
  · split at h
    · rename_i hle
      cases h
      exact hle
    · cases h
      rw [List.length_take]
      omega

end Socket

/-- The plaintext stream: `::recv`, `sendAll` and `::close`, nothing to negotiate. -/
def RawByteStream : IByteStream Socket where
  handshake s := (true, s)
  read := Socket.recv
  writeAll := Socket.sendAll
  close s := { s with closed := true }
  read_le := Socket.recv_length_le

/-! ## Watching a stream -/

/-- The bytes a read delivered. -/
def bytesOf : ReadResult → Bytes
  | .ok b => b
  | .error _ => []

@[simp] theorem bytesOf_ok (b : Bytes) : bytesOf (.ok b) = b := rfl

@[simp] theorem bytesOf_error (e : Errno) : bytesOf (.error e) = [] := rfl

/-- A stream's state together with what has passed through it. -/
structure Tap (β : Type) where
  inner : β
  /-- Number of reads made. -/
  reads : Nat
  /-- All bytes delivered by the reads. -/
  input : Bytes
  /-- The buffers given to the writes. -/
  output : List Bytes

def Tap.start {β : Type} (s : β) : Tap β := ⟨s, 0, [], []⟩

/-- The same stream, keeping a record. -/
def tap {β : Type} (S : IByteStream β) : IByteStream (Tap β) where
  handshake t := ((S.handshake t.inner).1, { t with inner := (S.handshake t.inner).2 })
  read t cap :=
    ((S.read t.inner cap).1,
      { t with
        inner := (S.read t.inner cap).2
        reads := t.reads + 1
        input := t.input ++ bytesOf (S.read t.inner cap).1 })
  writeAll t b :=
    ((S.writeAll t.inner b).1,
      { t with inner := (S.writeAll t.inner b).2, output := t.output ++ [b] })
  close t := { t with inner := S.close t.inner }
  read_le t cap b h := S.read_le t.inner cap b h

/-- SEC1 straight on a byte stream: a thin passthrough. -/
def TcpConn {β : Type} (S : IByteStream β) : IConn β where
  handshake := S.handshake
  recv := S.read
  send := S.writeAll
  close := S.close
  recv_le := S.read_le

/-- Calls of `recv` with the given capacities, in order. -/
def recvs {χ : Type} (C : IConn χ) : χ → List Nat → List ReadResult × χ
  | c, [] => ([], c)
  | c, cap :: caps =>
    ((C.recv c cap).1 :: (recvs C (C.recv c cap).2 caps).1, (recvs C (C.recv c cap).2 caps).2)

/-- The bytes handed out by a sequence of reads. -/
def returned (rs : List ReadResult) : Bytes := rs.flatMap bytesOf

end FaceTracking
