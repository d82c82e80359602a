import FaceTracking.Net.ClientSession
import FaceTracking.Net.WebSocketConn

/-!
# Outbound framing and failing writes

A write that the kernel accepts only in part leaves half a message on the
wire, so nothing may follow it. A session that half-writes a video frame
leaves its loop. Replies, file chunks, Pongs and Close echoes ignore the
result, and the next message follows the torn one (`torn_reply_followed`).

So the stream stays framed in every run in which each write cut short is a
video frame's or the last thing the socket accepts (`outbound_framing`).

`Tracked` is the invariant while the loop runs: after a cut write the rest of
the socket's script accepts nothing. `Ended` is what is left of it behind a
video frame that failed. The sessions' part of the argument is
`NetInvariant`, the carriers' part is what they do to their socket.
-/

namespace FaceTracking

open Lib Proto

/-! ## Writes -/

namespace Write

/-- The kernel has accepted some of the bytes and not all of them. -/
def Cut (w : Write) : Prop := 0 < w.accepted ∧ w.accepted < w.msg.length

instance (w : Write) : Decidable w.Cut := inferInstanceAs (Decidable (_ ∧ _))

/-- The bytes the kernel has accepted. -/
def taken (w : Write) : Bytes := w.msg.take w.accepted

end Write

def SendOutcome.accepts : SendOutcome → Bool
  | .accept _ => true
  | .fail _ => false

/-- No coming `::send` accepts a byte. -/
def Dead (outs : List SendOutcome) : Prop := ∀ o ∈ outs, o.accepts = false

instance (outs : List SendOutcome) : Decidable (Dead outs) :=
  inferInstanceAs (Decidable (∀ o ∈ outs, o.accepts = false))

/-- Behind a cut write nothing is accepted. -/
def Intact (ws : List Write) : Prop := ws.Pairwise fun w w' => w.Cut → w'.accepted = 0

instance (ws : List Write) : Decidable (Intact ws) :=
  inferInstanceAs (Decidable (ws.Pairwise _))

/-- Behind a cut write nothing is accepted, and what has been accepted is the
beginning of a sequence of whole messages. -/
def Framed (Whole : Bytes → Prop) (ws : List Write) : Prop :=
  Intact ws ∧
    ∃ ms : List Bytes, (∀ m ∈ ms, Whole m) ∧ ws.flatMap Write.taken <+: ms.flatten

/-- A write cut short is a video frame's, or the last thing the socket accepts. -/
def CutsAllowed (Video : Bytes → Prop) (ws : List Write) : Prop :=
  ∀ w ∈ ws, w.Cut → Video w.msg ∨ Dead w.left

theorem framed_of_intact {Whole : Bytes → Prop} {ws : List Write} (h : Intact ws)
    (hwhole : ∀ w ∈ ws, Whole w.msg) : Framed Whole ws := by
  refine ⟨h, ?_⟩
  induction ws with
  | nil => exact ⟨[], by simp, by simp⟩
  | cons w ws ih =>
    obtain ⟨hw, hws⟩ := List.pairwise_cons.mp h
    by_cases hcut : w.Cut
    · -- the rest has accepted nothing
      have hrest : ws.flatMap Write.taken = [] := by
        refine List.flatMap_eq_nil_iff.mpr fun w' hw' => ?_
        rw [Write.taken, hw w' hw' hcut, List.take_zero]
      refine ⟨[w.msg], by simpa using hwhole w (by simp), ?_⟩
      rw [List.flatMap_cons, hrest, List.append_nil]
      simpa [Write.taken] using List.take_prefix w.accepted w.msg
    · obtain ⟨ms, hms, hpre⟩ := ih hws fun w' hw' => hwhole w' (by simp [hw'])
      rcases Nat.eq_zero_or_pos w.accepted with h0 | hpos
      -- a write of which nothing was accepted leaves no trace in the stream
      · refine ⟨ms, hms, ?_⟩
        rw [List.flatMap_cons, Write.taken, h0, List.take_zero, List.nil_append]
        exact hpre
      · have hfull : w.taken = w.msg :=
          List.take_of_length_le (not_lt.mp fun hlt => hcut ⟨hpos, hlt⟩)
        refine ⟨w.msg :: ms, ?_, ?_⟩
        · intro m hm
          rcases List.mem_cons.mp hm with rfl | hm
          · exact hwhole w (by simp)
          · exact hms m hm
        · rw [List.flatMap_cons, hfull, List.flatten_cons]
          exact List.prefix_append_right_inj _ |>.mpr hpre

/-! ## Sending over a socket -/

namespace Socket

/-- A send that succeeds has written everything. -/
theorem sendLoop_true {outs : List SendOutcome} {data : Bytes}
    (h : (sendLoop outs data).1 = true) : (sendLoop outs data).2.1 = data.length := by
  induction outs, data using sendLoop.induct with
  | case1 outs => cases outs <;> rfl
  | case2 x data => cases h
  | case3 outs x data ih =>
    rw [sendLoop] at h ⊢
    exact ih h
  | case4 e outs x data he =>
    rw [sendLoop, if_neg he] at h
    cases h
  | case5 k outs x data n ih =>
    rw [sendLoop] at h ⊢
    have hn : n ≤ (x :: data).length := Nat.min_le_right _ _
    show n + (sendLoop outs ((x :: data).drop n)).2.1 = _
    rw [ih h, List.length_drop]
    omega

/-- A dead script accepts nothing and stays dead. -/
theorem sendLoop_dead {outs : List SendOutcome} {data : Bytes} (h : Dead outs) :
    (sendLoop outs data).2.1 = 0 ∧ Dead (sendLoop outs data).2.2 := by
  induction outs, data using sendLoop.induct with
  | case1 outs => exact ⟨by cases outs <;> rfl, by cases outs <;> exact h⟩
  | case2 x data => exact ⟨rfl, h⟩
  | case3 outs x data ih =>
    rw [sendLoop, if_pos rfl]
    exact ih fun o ho => h o (by simp [ho])
  | case4 e outs x data he =>
    rw [sendLoop, if_neg he]
    exact ⟨rfl, fun o ho => h o (by simp [ho])⟩
  | case5 k outs x data n ih => cases h (.accept k) (by simp)

end Socket

/-! ## Invariants of a socket -/

section Tracked

variable (Whole Video : Bytes → Prop) (skip : Nat)

/-- While the loop runs. The first `skip` writes belong to the handshake. -/
structure Tracked (s : Socket) : Prop where
  skip_le : skip ≤ s.writes.length
  whole : ∀ w ∈ s.writes.drop skip, Whole w.msg
  intact : CutsAllowed Video (s.writes.drop skip) →
    Intact (s.writes.drop skip) ∧ ∀ w ∈ s.writes.drop skip, w.Cut → Dead s.sends

/-- Once the loop has ended. -/
structure Ended (s : Socket) : Prop where
  whole : ∀ w ∈ s.writes.drop skip, Whole w.msg
  intact : CutsAllowed Video (s.writes.drop skip) → Intact (s.writes.drop skip)

variable {Whole Video skip} {s : Socket}

theorem Tracked.ended (h : Tracked Whole Video skip s) : Ended Whole Video skip s :=
  ⟨h.whole, fun hallowed => (h.intact hallowed).1⟩

theorem Ended.framed (h : Ended Whole Video skip s)
    (hallowed : CutsAllowed Video (s.writes.drop skip)) : Framed Whole (s.writes.drop skip) :=
  framed_of_intact (h.intact hallowed) h.whole

theorem Tracked.of_none (hle : skip ≤ s.writes.length) (h : s.writes.drop skip = []) :
    Tracked Whole Video skip s :=
  ⟨hle, by simp [h], fun _ => by simp [h, Intact]⟩

theorem Ended.of_none (h : s.writes.drop skip = []) : Ended Whole Video skip s :=
  ⟨by simp [h], fun _ => by simp [h, Intact]⟩

/-- **One write.** Earlier cut writes have left the script dead, so the new
write accepts nothing behind them. The script is dead again unless the new
write itself is cut. -/
theorem Tracked.write (h : Tracked Whole Video skip s) {msg : Bytes} (hmsg : Whole msg) :
    Ended Whole Video skip (RawByteStream.writeAll s msg).2 ∧
      ((RawByteStream.writeAll s msg).1 = true ∨ ¬ Video msg →
        Tracked Whole Video skip (RawByteStream.writeAll s msg).2) := by
  set w : Write :=
    ⟨msg, (Socket.sendLoop s.sends msg).2.1, (Socket.sendLoop s.sends msg).2.2⟩ with hw
  have hwrites : (RawByteStream.writeAll s msg).2.writes.drop skip = s.writes.drop skip ++ [w] :=
    List.drop_append_of_le_length h.skip_le
  have hwhole : ∀ w' ∈ s.writes.drop skip ++ [w], Whole w'.msg := by
    intro w' hw'
    rcases List.mem_append.mp hw' with hw' | hw'
    · exact h.whole w' hw'
    · rw [List.mem_singleton.mp hw']
      exact hmsg
  have hintact : CutsAllowed Video (s.writes.drop skip ++ [w]) →
      Intact (s.writes.drop skip ++ [w]) ∧
        ∀ w' ∈ s.writes.drop skip, w'.Cut → Dead (RawByteStream.writeAll s msg).2.sends := by
    intro hallowed
    obtain ⟨hbefore, hdead⟩ := h.intact fun w' hw' => hallowed w' (by simp [hw'])
    -- behind an earlier cut write the new one accepts nothing
    refine ⟨?_, fun w' hw' hcut => (Socket.sendLoop_dead (hdead w' hw' hcut)).2⟩
    refine List.pairwise_append.mpr ⟨hbefore, by simp, ?_⟩
    intro w' hw' w'' hw'' hcut
    rw [List.mem_singleton.mp hw'']
    exact (Socket.sendLoop_dead (hdead w' hw' hcut)).1
  refine ⟨⟨by rw [hwrites]; exact hwhole, by rw [hwrites]; exact fun ha => (hintact ha).1⟩, ?_⟩
  intro hsafe
  refine ⟨?_, by rw [hwrites]; exact hwhole, ?_⟩
  · show skip ≤ (s.writes ++ [w]).length
    have := h.skip_le
    simp
    omega
  · rw [hwrites]
    intro hallowed
    refine ⟨(hintact hallowed).1, ?_⟩
    intro w' hw' hcut
    rcases List.mem_append.mp hw' with hw' | hw'
    · exact (hintact hallowed).2 w' hw' hcut
    · rw [List.mem_singleton.mp hw'] at hcut
      rcases hsafe with hok | hvideo
      · -- a write that succeeded is not cut
        have hfull : w.accepted = w.msg.length := Socket.sendLoop_true hok
        exact absurd hcut.2 (by omega)
      -- a cut reply is allowed only if the socket is dead behind it
      · exact (hallowed w (by simp) hcut).resolve_left hvideo

end Tracked

/-- Only writes and the coming answers to writes matter. -/
theorem Tracked.congr {Whole Video : Bytes → Prop} {skip : Nat} {s s' : Socket}
    (h : Tracked Whole Video skip s) (hwrites : s'.writes = s.writes) (hsends : s'.sends = s.sends) :
    Tracked Whole Video skip s' := by
  refine ⟨?_, ?_, ?_⟩ <;> rw [hwrites]
  · exact h.skip_le
  · exact h.whole
  · rw [hsends]
    exact h.intact

theorem Socket.recv_kept (s : Socket) (cap : Nat) :
    (s.recv cap).2.writes = s.writes ∧ (s.recv cap).2.sends = s.sends := by
  unfold Socket.recv
  split
  · exact ⟨rfl, rfl⟩
  · exact ⟨rfl, rfl⟩
  · split <;> exact ⟨rfl, rfl⟩

/-! ## What the carriers write -/

/-- A SEC1 message. -/
def SecMessage (b : Bytes) : Prop := ∃ m : Message, b = m.wire

/-- A SEC1 message that is a video frame. -/
def SecVideo (b : Bytes) : Prop := ∃ m : Message, m.type = MsgType.VideoFrame.code ∧ b = m.wire

/-- A WebSocket frame. -/
def WsFrame (b : Bytes) : Prop := ∃ opcode data, b = Ws.encodeFrame [] opcode data

theorem wsFrame (opcode : UInt8) (data : Bytes) : WsFrame (Ws.encodeFrame [] opcode data) :=
  ⟨opcode, data, rfl⟩

/-- A WebSocket frame that carries a video frame. -/
def WsVideo (b : Bytes) : Prop :=
  ∃ m : Message, m.type = MsgType.VideoFrame.code ∧ b = Ws.encodeFrame [] Ws.kOpBinary m.wire

theorem frameMessage_eq (f : Frame) :
    ∃ m : Message, m.type = MsgType.VideoFrame.code ∧ ClientSession.frameMessage f = m.wire :=
  ⟨⟨MsgType.VideoFrame.code, 0, _⟩, rfl, rfl⟩

theorem not_secVideo {m : Message} (h : m.type ≠ MsgType.VideoFrame.code) : ¬ SecVideo m.wire := by
  rintro ⟨m', hm', he⟩
  exact h ((Message.type_eq_of_wire he).trans hm')

theorem not_wsVideo {m : Message} (h : m.type ≠ MsgType.VideoFrame.code) :
    ¬ WsVideo (Ws.encodeFrame [] Ws.kOpBinary m.wire) := by
  rintro ⟨m', hm', he⟩
  exact not_secVideo h ⟨m', hm', (Ws.encodeFrame_inj he).2⟩

theorem control_not_wsVideo {opcode : UInt8} (h : opcode = Ws.kOpPong ∨ opcode = Ws.kOpClose)
    (data : Bytes) : ¬ WsVideo (Ws.encodeFrame [] opcode data) := by
  rintro ⟨m', -, he⟩
  have hop := (Ws.encodeFrame_inj he).1
  rcases h with rfl | rfl <;> revert hop <;> decide

/-! ## Invariants of the connections -/

namespace ClientSession

variable {ε ψ : Type} (E : Environment ε) (Sh : Shared ψ) (cfg : SessionConfig)

theorem tcp_invariant :
    NetInvariant (World.of (TcpConn RawByteStream) E) (fun k => Tracked SecMessage SecVideo 0 k.1)
      (fun k => Ended SecMessage SecVideo 0 k.1) where
  weaken _ h := h.ended
  reply _ m hm h := (h.write ⟨m, rfl⟩).2 (.inr (not_secVideo hm))
  frame _ f h := by
    obtain ⟨m, -, hf⟩ := frameMessage_eq f
    have hw := h.write (⟨m, hf⟩ : SecMessage (frameMessage f))
    exact ⟨fun hok => hw.2 (.inl hok), hw.1⟩
  nowMs _ h := h
  stopped _ h := h
  poll _ _ h := h
  close _ h := ⟨h.whole, h.intact⟩

theorem webSocket_send {β : Type} (S : IByteStream β) (fuel : Nat)
    (k : WebSocketConn.State β × ε) (data : Bytes) :
    (World.of (WebSocketConn S fuel) E).conn.send k data =
      ((S.writeAll k.1.stream (Ws.encodeFrame [] Ws.kOpBinary data)).1,
        { k.1 with stream := (S.writeAll k.1.stream (Ws.encodeFrame [] Ws.kOpBinary data)).2 },
        k.2) := rfl

theorem webSocket_invariant (fuel : Nat) :
    NetInvariant (World.of (WebSocketConn RawByteStream fuel) E)
      (fun k => Tracked WsFrame WsVideo 1 k.1.stream)
      (fun k => Ended WsFrame WsVideo 1 k.1.stream) where
  weaken _ h := h.ended
  reply _ m hm h := by
    have hw := h.write (wsFrame Ws.kOpBinary m.wire)
    exact hw.2 (.inr (not_wsVideo hm))
  frame k f h := by
    have hw := h.write (wsFrame Ws.kOpBinary (frameMessage f))
    rw [webSocket_send]
    dsimp only
    exact ⟨fun hok => hw.2 (.inl hok), hw.1⟩
  nowMs _ h := h
  stopped _ h := h
  poll _ _ h := h
  close _ h := ⟨h.whole, h.intact⟩

/-- Answering a control frame writes a frame that carries no video. -/
theorem answer_tracked {s : Socket} (h : Tracked WsFrame WsVideo 1 s) (f : Ws.Frame) :
    Tracked WsFrame WsVideo 1 (WebSocketConn.answer RawByteStream s f) := by
  unfold WebSocketConn.answer WebSocketConn.replyTo
  by_cases hping : f.opcode = Ws.kOpPing
  · rw [if_pos hping]
    exact (h.write (wsFrame _ _)).2 (.inr (control_not_wsVideo (.inl rfl) _))
  · rw [if_neg hping]
    by_cases hclose : f.opcode = Ws.kOpClose
    · rw [if_pos hclose]
      exact (h.write (wsFrame _ _)).2 (.inr (control_not_wsVideo (.inr rfl) _))
    · rw [if_neg hclose]
      exact h

theorem answers_tracked (fs : List Ws.Frame) {s : Socket} (h : Tracked WsFrame WsVideo 1 s) :
    Tracked WsFrame WsVideo 1 (fs.foldl (WebSocketConn.answer RawByteStream) s) := by
  induction fs generalizing s with
  | nil => exact h
  | cons f fs ih => exact ih (answer_tracked h f)

theorem webSocket_recv_tracked {c : WebSocketConn.State Socket} (cap : Nat)
    (h : Tracked WsFrame WsVideo 1 c.stream) :
    Tracked WsFrame WsVideo 1 (WebSocketConn.recv RawByteStream c cap).2.stream := by
  have hkept := Socket.recv_kept c.stream 8192
  have hread : Tracked WsFrame WsVideo 1 (RawByteStream.read c.stream 8192).2 :=
    h.congr hkept.1 hkept.2
  obtain ⟨-, hr⟩ | ⟨-, -, hr⟩ | ⟨-, -, -, hr⟩ | ⟨-, hopen, -, hr⟩ :=
    WebSocketConn.recv_cases RawByteStream c cap
  · rw [hr]
    exact h
  · rw [hr]
    exact h
  · rw [hr]
    exact hread
  · rw [hr, WebSocketConn.handOut_state,
      WebSocketConn.drainFrames_eq RawByteStream (WebSocketConn.filled RawByteStream c) hopen]
    exact answers_tracked _ hread

/-! ## Upgrading -/

theorem readRequest_writes (fuel : Nat) (req : Bytes) (s : Socket) :
    (WebSocketConn.readRequest RawByteStream fuel req s).2.writes = s.writes :=
  WebSocketConn.readRequest_keeps RawByteStream (I := fun s' => s'.writes = s.writes)
    (fun s' h => (Socket.recv_kept s' 2048).1.trans h) fuel req rfl

/-- An upgrade writes at most the response, and exactly that if it succeeds. -/
theorem handshake_writes (fuel : Nat) {s : Socket} (hs : s.writes = []) :
    let r := WebSocketConn.handshake RawByteStream fuel (.fresh s)
    r.2.stream.writes.length ≤ 1 ∧ (r.1 = true → 1 ≤ r.2.stream.writes.length) := by
  have hwrites : (WebSocketConn.readRequest RawByteStream fuel [] s).2.writes = [] :=
    (readRequest_writes fuel [] s).trans hs
  intro r
  obtain ⟨-, hr⟩ | hr | ⟨req, -, -, -, hr⟩ :=
    WebSocketConn.handshake_cases RawByteStream fuel (.fresh s)
  · have hr : r = (false, .fresh s) := hr
    rw [hr]
    exact ⟨by simp [WebSocketConn.State.fresh, hs], nofun⟩
  · have hr : r = (false, ⟨(WebSocketConn.readRequest RawByteStream fuel [] s).2, false, [], []⟩) := hr
    rw [hr]
    exact ⟨by simp [hwrites], nofun⟩
  · have hlen : r.2.stream.writes.length = 1 := by
      rw [show r = _ from hr]
      change ((WebSocketConn.readRequest RawByteStream fuel [] s).2.writes ++ [_]).length = 1
      rw [hwrites]
      rfl
    exact ⟨le_of_eq hlen, fun _ => le_of_eq hlen.symm⟩

/-! ## Main result -/

/-- **Outbound framing.** On either carrier and after any number of iterations,
what the socket has accepted since the handshake is the beginning of a sequence
of whole messages, and nothing has been accepted behind a write cut short, if
every write cut short is a video frame's or the last the socket accepts. -/
theorem outbound_framing (reads : List ReadResult) (outs : List SendOutcome) (env : ε)
    (shared : ψ) (n : Nat) :
    let sock : Socket := ⟨reads, outs, [], false⟩
    let tcp := (run (.of (TcpConn RawByteStream) E) Sh cfg (sock, env) shared n).net.1
    let ws := fun fuel =>
      (run (.of (WebSocketConn RawByteStream fuel) E) Sh cfg (.fresh sock, env) shared n).net.1.stream
    (CutsAllowed SecVideo tcp.writes → Framed SecMessage tcp.writes) ∧
      ∀ fuel, CutsAllowed WsVideo ((ws fuel).writes.drop 1) →
        Framed WsFrame ((ws fuel).writes.drop 1) := by
  intro sock tcp ws
  constructor
  · have h := tcp_invariant E
    have hrun : NetHolds (fun k => Tracked SecMessage SecVideo 0 k.1)
        (fun k => Ended SecMessage SecVideo 0 k.1)
        (run (.of (TcpConn RawByteStream) E) Sh cfg (sock, env) shared n) := by
      induction n with
      | zero =>
        have hfresh : Tracked SecMessage SecVideo 0 sock := .of_none (Nat.zero_le _) rfl
        exact h.start cfg shared (fun _ => hfresh) (fun _ => hfresh.ended)
      | succ n ih =>
        refine h.loopStep Sh cfg ih fun t _ ht => ?_
        have hkept := Socket.recv_kept t.net.1 8192
        exact ht.congr hkept.1 hkept.2
    exact hrun.1.framed
  · intro fuel
    have h := webSocket_invariant E fuel
    have hrun : NetHolds (fun k => Tracked WsFrame WsVideo 1 k.1.stream)
        (fun k => Ended WsFrame WsVideo 1 k.1.stream)
        (run (.of (WebSocketConn RawByteStream fuel) E) Sh cfg (.fresh sock, env) shared n) := by
      induction n with
      | zero =>
        obtain ⟨hle, hge⟩ := handshake_writes fuel (show sock.writes = [] from rfl)
        have hnone : (WebSocketConn.handshake RawByteStream fuel (.fresh sock)).2.stream.writes.drop 1
            = [] := List.drop_eq_nil_of_le hle
        exact h.start cfg shared (fun hup => .of_none (hge hup) hnone) (fun _ => .of_none hnone)
      | succ n ih =>
        exact h.loopStep Sh cfg ih fun t _ ht => webSocket_recv_tracked 8192 ht
    exact hrun.1.framed

/-- A client that asks for the file list twice, over a socket with the given
answers to its sends. -/
def listTwice (outs : List SendOutcome) : ClientSession (Socket × List PollResult) Unit :=
  let request : Message := ⟨MsgType.FileListReq.code, 0, []⟩
  run (.of (TcpConn RawByteStream) (schedule 0)) Shared.empty ⟨15, []⟩
    (⟨[.ok request.wire, .ok request.wire], outs, [], false⟩,
      [.ready false true, .ready false true]) () 2

/-- The connection is reset in the middle of the first reply. -/
def resetOutcomes : List SendOutcome := [.accept 200, .accept 4, .fail (.other 104)]

/-- The first reply times out after five bytes, the second is accepted whole. -/
def timeoutOutcomes : List SendOutcome := [.accept 200, .accept 4, .fail .EAGAIN, .accept 200]

theorem outbound_framing_reset :
    Framed SecMessage (listTwice resetOutcomes).net.1.writes ∧
      (listTwice resetOutcomes).net.1.writes.map Write.accepted = [52, 5, 0] := by
  have hdead : ∀ w ∈ (listTwice resetOutcomes).net.1.writes, w.Cut → Dead w.left := by
    decide +kernel
  have hallowed : CutsAllowed SecVideo (listTwice resetOutcomes).net.1.writes :=
    fun w hw hcut => .inr (hdead w hw hcut)
  exact ⟨(outbound_framing (schedule 0) Shared.empty ⟨15, []⟩ _ resetOutcomes _ () 2).1 hallowed,
    by decide +kernel⟩

/-- Five bytes of one reply are followed by a whole one. -/
theorem torn_reply_followed : ¬ Framed SecMessage (listTwice timeoutOutcomes).net.1.writes := by
  have htorn : ¬ Intact (listTwice timeoutOutcomes).net.1.writes := by decide +kernel
  exact fun h => htorn h.1

end ClientSession

end FaceTracking
