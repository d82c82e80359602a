import FaceTracking.Net.ClientSession
import FaceTracking.Net.WebSocketConn

/-!
# Sessions under a clock

Time passes in the operations of a stream and in `poll`; everything else takes
none. `Pace` says how far an operation moves the clock, and `timed` is a stream
that keeps the clock and notes when its reads begin. The clock never goes back;
that a read returns within the socket timeout, and `poll` within the timeout it
is given, is asked for where it matters (`PromptPace`, `PromptPoller`). `Metered`
is what follows for a connection on such a stream.
-/

namespace FaceTracking

open Lib Proto

/-- `SO_RCVTIMEO`, as `run` sets it. -/
def kSocketTimeoutMs : Nat := 5000

/-- The clock behind each operation of a stream, for the clock in front of it. -/
structure Pace (β : Type) where
  handshake : β → UInt64 → UInt64
  read : β → Nat → UInt64 → UInt64
  writeAll : β → Bytes → UInt64 → UInt64
  handshake_le : ∀ s now, now ≤ handshake s now
  read_le : ∀ s cap now, now ≤ read s cap now
  writeAll_le : ∀ s b now, now ≤ writeAll s b now

/-- A pace at which a single read returns within the socket timeout. -/
structure PromptPace (β : Type) extends Pace β where
  read_timeout : ∀ s cap now, (read s cap now).toNat ≤ now.toNat + kSocketTimeoutMs

/-- A stream's state, the clock, and the clock at the beginning of each read. -/
structure Timed (β : Type) where
  stream : β
  now : UInt64
  readsAt : List UInt64

/-- The stream under the clock. -/
def timed {β : Type} (S : IByteStream β) (P : Pace β) : IByteStream (Timed β) where
  handshake t :=
    ((S.handshake t.stream).1,
      { t with stream := (S.handshake t.stream).2, now := P.handshake t.stream t.now })
  read t cap :=
    ((S.read t.stream cap).1,
      { stream := (S.read t.stream cap).2
        now := P.read t.stream cap t.now
        readsAt := t.readsAt ++ [t.now] })
  writeAll t b :=
    ((S.writeAll t.stream b).1,
      { t with stream := (S.writeAll t.stream b).2, now := P.writeAll t.stream b t.now })
  close t := { t with stream := S.close t.stream }
  read_le t cap b h := S.read_le t.stream cap b h

/-- Where a connection keeps its clock and its notes. -/
structure Clock (χ : Type) where
  now : χ → UInt64
  set : χ → UInt64 → χ
  readsAt : χ → List UInt64
  now_set : ∀ k t, now (set k t) = t
  readsAt_set : ∀ k t, readsAt (set k t) = readsAt k

/-- The stop flag, and `poll` with the clock in front of it and behind it. -/
structure Poller (ε : Type) where
  stopped : ε → Bool × ε
  poll : ε → UInt64 → Int32 → (PollResult × UInt64) × ε
  poll_le : ∀ e now timeout, now ≤ (poll e now timeout).1.2

/-- A poller that returns within the timeout it is given. -/
structure PromptPoller (ε : Type) extends Poller ε where
  poll_timeout : ∀ e now timeout,
    (poll e now timeout).1.2.toNat ≤ now.toNat + timeout.toInt.toNat

/-- A connection with a clock, and a poller. -/
def World.timed {χ ε : Type} (C : IConn χ) (K : Clock χ) (E : Poller ε) : World (χ × ε) where
  conn :=
    { handshake := fun k => ((C.handshake k.1).1, (C.handshake k.1).2, k.2)
      recv := fun k cap => ((C.recv k.1 cap).1, (C.recv k.1 cap).2, k.2)
      send := fun k b => ((C.send k.1 b).1, (C.send k.1 b).2, k.2)
      close := fun k => (C.close k.1, k.2)
      recv_le := C.recv_fst_le }
  nowMs k := (K.now k.1, k)
  stopped k := ((E.stopped k.2).1, k.1, (E.stopped k.2).2)
  poll k timeout :=
    ((E.poll k.2 (K.now k.1) timeout).1.1,
      K.set k.1 (E.poll k.2 (K.now k.1) timeout).1.2, (E.poll k.2 (K.now k.1) timeout).2)

/-! ## Connections on a timed stream -/

/-- The clock does not go back, and only `recv` reads, at most once and right away. -/
structure Metered {χ : Type} (C : IConn χ) (K : Clock χ) : Prop where
  recv_le : ∀ k cap, K.now k ≤ K.now (C.recv k cap).2
  recv_reads : ∀ k cap, K.readsAt (C.recv k cap).2 = K.readsAt k ∨
    K.readsAt (C.recv k cap).2 = K.readsAt k ++ [K.now k]
  send_le : ∀ k b, K.now k ≤ K.now (C.send k b).2
  send_reads : ∀ k b, K.readsAt (C.send k b).2 = K.readsAt k
  close_now : ∀ k, K.now (C.close k) = K.now k
  close_reads : ∀ k, K.readsAt (C.close k) = K.readsAt k
  /-- The reads of the handshake begin before it is over. -/
  handshake : ∀ k, (∀ t ∈ K.readsAt k, t ≤ K.now k) →
    ∀ t ∈ K.readsAt (C.handshake k).2, t ≤ K.now (C.handshake k).2

section Carriers

variable {β : Type} (S : IByteStream β) (P : Pace β)

def tcpClock (β : Type) : Clock (Timed β) where
  now := Timed.now
  set t now := { t with now }
  readsAt := Timed.readsAt
  now_set _ _ := rfl
  readsAt_set _ _ := rfl

def webSocketClock (β : Type) : Clock (WebSocketConn.State (Timed β)) where
  now c := c.stream.now
  set c now := { c with stream := { c.stream with now } }
  readsAt c := c.stream.readsAt
  now_set _ _ := rfl
  readsAt_set _ _ := rfl

theorem tcp_metered : Metered (TcpConn (timed S P)) (tcpClock β) where
  recv_le t cap := P.read_le t.stream cap t.now
  recv_reads _ _ := .inr rfl
  send_le t b := P.writeAll_le t.stream b t.now
  send_reads _ _ := rfl
  close_now _ := rfl
  close_reads _ := rfl
  handshake t h u hu := UInt64.le_trans (h u hu) (P.handshake_le t.stream t.now)

/-- Replies take time and read nothing. -/
theorem answers_timed (t : Timed β) (fs : List Ws.Frame) :
    t.now ≤ (fs.foldl (WebSocketConn.answer (timed S P)) t).now ∧
      (fs.foldl (WebSocketConn.answer (timed S P)) t).readsAt = t.readsAt := by
  induction fs generalizing t with
  | nil => exact ⟨UInt64.le_refl _, rfl⟩
  | cons f fs ih =>
    have hone : t.now ≤ (WebSocketConn.answer (timed S P) t f).now ∧
        (WebSocketConn.answer (timed S P) t f).readsAt = t.readsAt := by
      unfold WebSocketConn.answer
      split
      · exact ⟨P.writeAll_le _ _ _, rfl⟩
      · exact ⟨UInt64.le_refl _, rfl⟩
    obtain ⟨hle, hreads⟩ := ih (WebSocketConn.answer (timed S P) t f)
    exact ⟨UInt64.le_trans hone.1 hle, hreads.trans hone.2⟩

/-- A read of the connection reads the stream at most once, and right away. -/
theorem webSocket_recv_timed (c : WebSocketConn.State (Timed β)) (cap : Nat) :
    c.stream.now ≤ (WebSocketConn.recv (timed S P) c cap).2.stream.now ∧
      ((WebSocketConn.recv (timed S P) c cap).2.stream.readsAt = c.stream.readsAt ∨
        (WebSocketConn.recv (timed S P) c cap).2.stream.readsAt =
          c.stream.readsAt ++ [c.stream.now]) := by
  have hread : c.stream.now ≤ ((timed S P).read c.stream 8192).2.now ∧
      ((timed S P).read c.stream 8192).2.readsAt = c.stream.readsAt ++ [c.stream.now] :=
    ⟨P.read_le _ _ _, rfl⟩
  obtain ⟨-, hr⟩ | ⟨-, -, hr⟩ | ⟨-, -, -, hr⟩ | ⟨-, hopen, -, hr⟩ :=
    WebSocketConn.recv_cases (timed S P) c cap
  · rw [hr]
    exact ⟨UInt64.le_refl _, .inl rfl⟩
  · rw [hr]
    exact ⟨UInt64.le_refl _, .inl rfl⟩
  · rw [hr]
    exact ⟨hread.1, .inr hread.2⟩
  · -- the replies to the frames come behind the read
    obtain ⟨hle, hreads⟩ := answers_timed S P ((timed S P).read c.stream 8192).2
      (Ws.content (WebSocketConn.filled (timed S P) c).rx).items
    rw [hr, WebSocketConn.handOut_state,
      WebSocketConn.drainFrames_eq (timed S P) (WebSocketConn.filled (timed S P) c) hopen]
    exact ⟨UInt64.le_trans hread.1 hle, .inr (hreads.trans hread.2)⟩

/-- The reads of the upgrade request begin no later than now. -/
theorem readRequest_timed (fuel : Nat) (req : Bytes) (t : Timed β)
    (h : ∀ u ∈ t.readsAt, u ≤ t.now) :
    ∀ u ∈ (WebSocketConn.readRequest (timed S P) fuel req t).2.readsAt,
      u ≤ (WebSocketConn.readRequest (timed S P) fuel req t).2.now := by
  refine WebSocketConn.readRequest_keeps (timed S P) (I := fun t => ∀ u ∈ t.readsAt, u ≤ t.now) ?_
    fuel req h
  intro t h u hu
  have hle : t.now ≤ ((timed S P).read t 2048).2.now := P.read_le _ _ _
  -- an earlier read, or the one that begins at `t.now`
  rcases List.mem_append.mp hu with hu | hu
  · exact UInt64.le_trans (h u hu) hle
  · rw [List.mem_singleton.mp hu]
    exact hle

theorem webSocket_metered (fuel : Nat) :
    Metered (WebSocketConn (timed S P) fuel) (webSocketClock β) where
  recv_le c cap := (webSocket_recv_timed S P c cap).1
  recv_reads c cap := (webSocket_recv_timed S P c cap).2
  send_le c b := P.writeAll_le _ _ _
  send_reads _ _ := rfl
  close_now _ := rfl
  close_reads _ := rfl
  handshake c h := by
    change ∀ u ∈ (WebSocketConn.handshake (timed S P) fuel c).2.stream.readsAt,
      u ≤ (WebSocketConn.handshake (timed S P) fuel c).2.stream.now
    have hshake : ∀ u ∈ ((timed S P).handshake c.stream).2.readsAt,
        u ≤ ((timed S P).handshake c.stream).2.now :=
      fun u hu => UInt64.le_trans (h u hu) (P.handshake_le _ _)
    have hrequest := readRequest_timed S P fuel [] _ hshake
    obtain ⟨-, hr⟩ | hr | ⟨req, -, -, -, hr⟩ := WebSocketConn.handshake_cases (timed S P) fuel c
    · rw [hr]
      exact hshake
    · rw [hr]
      exact hrequest
    · rw [hr]
      exact fun u hu => UInt64.le_trans (hrequest u hu) (P.writeAll_le _ _ _)

end Carriers

end FaceTracking
