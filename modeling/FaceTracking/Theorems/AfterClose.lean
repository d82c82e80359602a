import FaceTracking.Theorems.BytePipe
import FaceTracking.Theorems.StrandedData

/-!
# What follows a Close

The carrier echoes a Close while it de-frames, before the session has seen the
data of the frames in front of it. As long as every Close comes without such
data (`CloseAlone`), the read that meets it reports the end of the stream, the
session leaves its loop, and nothing is written behind the echo
(`nothing_follows_close`). A request and a Close in one read are answered in
the wrong order (`close_then_reply`).

While the loop runs, `NoClose` holds of what has been written; the read that
writes a Close ends the loop: `recv_close`.
-/

namespace FaceTracking.WebSocketConn

open Lib ClientSession

/-- A Close frame, as the carrier writes it. -/
def isCloseText (b : Bytes) : Bool := b.head? == some (0x80 ||| Ws.kOpClose)

/-- A data frame, as the carrier writes it. -/
def isDataText (b : Bytes) : Bool := b.head? == some (0x80 ||| Ws.kOpBinary)

/-- No data frame behind a Close frame. -/
def SilentAfterClose (out : List Bytes) : Prop :=
  out.Pairwise fun a b => isCloseText a = true → isDataText b = false

instance (out : List Bytes) : Decidable (SilentAfterClose out) :=
  inferInstanceAs (Decidable (out.Pairwise _))

def NoClose (out : List Bytes) : Prop := ∀ b ∈ out, isCloseText b = false

theorem head_encodeFrame (opcode : UInt8) (data : Bytes) :
    (Ws.encodeFrame [] opcode data).head? = some (0x80 ||| (opcode &&& 0x0F)) := by
  rw [Ws.encodeFrame_eq]
  rfl

theorem isCloseText_encodeFrame (opcode : UInt8) (data : Bytes) :
    isCloseText (Ws.encodeFrame [] opcode data) =
      (0x80 ||| (opcode &&& 0x0F) == 0x80 ||| Ws.kOpClose) := by
  rw [isCloseText, head_encodeFrame]
  rfl

theorem NoClose.silent {out : List Bytes} (h : NoClose out) : SilentAfterClose out := by
  refine List.Pairwise.imp_of_mem (R := fun _ _ => True) ?_ (List.pairwise_of_forall fun _ _ => trivial)
  intro a b ha _ _ hclose
  rw [h a ha] at hclose
  cases hclose

theorem NoClose.append {out out' : List Bytes} (h : NoClose out) (h' : NoClose out') :
    NoClose (out ++ out') := by
  intro b hb
  rcases List.mem_append.mp hb with hb | hb
  · exact h b hb
  · exact h' b hb

/-- A Close in the last place is followed by nothing. -/
theorem NoClose.silent_append {out : List Bytes} (h : NoClose out) (b : Bytes) :
    SilentAfterClose (out ++ [b]) := by
  refine List.pairwise_append.mpr ⟨h.silent, List.pairwise_singleton _ b, ?_⟩
  intro a ha _ _ hclose
  rw [h a ha] at hclose
  cases hclose

/-- The replies to frames none of which is a Close are Pongs. -/
theorem replies_noClose {fs : List Ws.Frame} (h : ∀ f ∈ fs, Ws.isClose f = false) :
    NoClose (fs.filterMap replyTo) := by
  rw [filterMap_replyTo_of_not_close fs h]
  intro b hb
  obtain ⟨f, -, rfl⟩ := List.mem_map.mp hb
  rw [isCloseText_encodeFrame]
  decide

/-! ## One read -/

variable {β : Type} (S : IByteStream β)

/-- If the next read of the stream completes a Close frame, no application
data stands in front of it. -/
def CloseAlone (c : State β) : Prop :=
  let input := c.rx ++ bytesOf (S.read c.stream 8192).1
  c.app = [] → c.closed = false → bytesOf (S.read c.stream 8192).1 ≠ [] →
    (Ws.content input).ending = .halted → Ws.deframe input = []

instance (c : State β) : Decidable (CloseAlone S c) :=
  inferInstanceAs (Decidable (_ → _ → _ → _ → _))

/-- **Reading.** A read writes no Close, or a Close alone and then reports the
end of the stream. -/
theorem recv_close {c : State (Tap β)} (hc : NoClose c.stream.output)
    (halone : CloseAlone (tap S) c) :
    SilentAfterClose (recv (tap S) c 8192).2.stream.output ∧
      ((recv (tap S) c 8192).1 ≠ .ok [] → NoClose (recv (tap S) c 8192).2.stream.output) := by
  have hkeep : ∀ {out : List Bytes} {r : ReadResult}, NoClose out →
      SilentAfterClose out ∧ (r ≠ .ok [] → NoClose out) := fun h => ⟨h.silent, fun _ => h⟩
  unfold CloseAlone at halone
  obtain ⟨-, hr⟩ | ⟨-, -, hr⟩ | ⟨-, -, -, hr⟩ | ⟨hnil, hopen, hb, hr⟩ := recv_cases (tap S) c 8192
  · rw [hr]
    exact hkeep hc
  · rw [hr]
    exact hkeep hc
  · rw [hr]
    exact hkeep hc
  have hd := drainFrames_eq (tap S) (filled (tap S) c) hopen
  have hout : (drainFrames (tap S) (filled (tap S) c)).stream.output =
      c.stream.output ++ (Ws.content (filled (tap S) c).rx).items.filterMap replyTo := by
    rw [hd, (answers_tap S _ _).2]
    rfl
  have happ : (drainFrames (tap S) (filled (tap S) c)).app = Ws.deframe (filled (tap S) c).rx := by
    rw [hd]
    exact congrArg (· ++ _) hnil
  have hclosed : (drainFrames (tap S) (filled (tap S) c)).closed =
      ((Ws.content (filled (tap S) c).rx).ending != .starved) := by
    rw [hd]
  rw [hr, handOut_state]
  obtain ⟨fs, hfs, ⟨hi, he⟩ | ⟨z, hz, hi, he⟩⟩ :=
    Ws.frames.items_of_scan Ws.isClose (filled (tap S) c).rx
  · -- no Close among the frames
    have hno : NoClose (drainFrames (tap S) (filled (tap S) c)).stream.output := by
      rw [hout, Ws.content, hi]
      exact hc.append (replies_noClose hfs)
    exact hkeep hno
  · -- a Close ends the scan, so its echo is the last thing the read writes
    have hdata : (drainFrames (tap S) (filled (tap S) c)).app = [] :=
      happ.trans (halone hnil hopen hb he)
    have hend : (drainFrames (tap S) (filled (tap S) c)).closed = true := by
      rw [hclosed, Ws.content, he]
      rfl
    have hop : z.opcode = Ws.kOpClose := by simpa [Ws.isClose] using hz
    have hreply : (drainFrames (tap S) (filled (tap S) c)).stream.output =
        (c.stream.output ++ fs.filterMap replyTo) ++
          [Ws.encodeFrame [] Ws.kOpClose z.payload] := by
      rw [hout, Ws.content, hi, List.filterMap_append, List.append_assoc]
      simp [replyTo, hop, Ws.kOpClose, Ws.kOpPing]
    rw [hreply]
    refine ⟨(hc.append (replies_noClose hfs)).silent_append _, fun h => absurd ?_ h⟩
    rw [handOut, if_neg (not_not_intro hdata), if_pos hend]

/-! ## The session -/

variable {ε ψ : Type} (E : Environment ε) (Sh : Shared ψ) (cfg : SessionConfig)

/-- The session itself writes only data frames. -/
theorem close_invariant (fuel : Nat) :
    NetInvariant (World.of (WebSocketConn (tap S) fuel) E) (fun k => NoClose k.1.stream.output)
      (fun k => SilentAfterClose k.1.stream.output) where
  weaken _ h := h.silent
  reply k m _ h := by
    refine h.append ?_
    intro b hb
    rw [List.mem_singleton.mp hb, isCloseText_encodeFrame]
    decide
  frame k f h := by
    have hno : NoClose (k.1.stream.output ++
        [Ws.encodeFrame [] Ws.kOpBinary (frameMessage f)]) := by
      refine h.append ?_
      intro b hb
      rw [List.mem_singleton.mp hb, isCloseText_encodeFrame]
      decide
    exact ⟨fun _ => hno, hno.silent⟩
  nowMs _ h := h
  stopped _ h := h
  poll _ _ h := h
  close _ h := h

theorem readRequest_output (fuel : Nat) (req : Bytes) (t : Tap β) :
    (readRequest (tap S) fuel req t).2.output = t.output :=
  readRequest_keeps (tap S) (I := fun t' => t'.output = t.output) (fun _ h => h) fuel req rfl

/-- The upgrade writes at most its response. -/
theorem handshake_noClose (fuel : Nat) (s : β) :
    NoClose (handshake (tap S) fuel (.fresh (Tap.start s))).2.stream.output := by
  have hnone : NoClose [] := by
    intro b hb
    cases hb
  have hread := readRequest_output S fuel [] ((tap S).handshake (Tap.start s)).2
  have hstart : ((tap S).handshake (Tap.start s)).2.output = [] := rfl
  rw [hstart] at hread
  obtain ⟨-, hr⟩ | hr | ⟨req, -, -, -, hr⟩ := handshake_cases (tap S) fuel (.fresh (Tap.start s))
  · rw [hr]
    exact hnone
  · rw [hr]
    change NoClose (readRequest (tap S) fuel [] ((tap S).handshake (Tap.start s)).2).2.output
    rw [hread]
    exact hnone
  · rw [hr]
    intro b hb
    have hb' : b ∈ (readRequest (tap S) fuel [] ((tap S).handshake (Tap.start s)).2).2.output ++
        [response (requestKey req)] := hb
    -- an HTTP response begins with `H`, which is no Close frame
    rw [hread, List.nil_append, List.mem_singleton] at hb'
    rw [hb']
    rfl

/-- No data frame behind a Close in what a session's carrier has written. -/
def ClosesSilently (s : ClientSession (State (Tap β) × ε) ψ) : Prop :=
  SilentAfterClose s.net.1.stream.output

instance (s : ClientSession (State (Tap β) × ε) ψ) : Decidable (ClosesSilently s) :=
  inferInstanceAs (Decidable (SilentAfterClose _))

/-- **Nothing follows a Close**, in any run in which every read that completes
a Close frame finds no application data in front of it. -/
theorem nothing_follows_close (fuel : Nat) (stream : β) (env : ε) (shared : ψ) (n : Nat)
    (halone : ∀ m < n, ∀ t ∈ reading (World.of (WebSocketConn (tap S) fuel) E)
      (run (World.of (WebSocketConn (tap S) fuel) E) Sh cfg (.fresh (Tap.start stream), env)
        shared m), CloseAlone (tap S) t.net.1) :
    ClosesSilently (run (World.of (WebSocketConn (tap S) fuel) E) Sh cfg
      (.fresh (Tap.start stream), env) shared n) := by
  have h := close_invariant S E fuel
  have hholds : NetHolds (fun k => NoClose k.1.stream.output)
      (fun k => SilentAfterClose k.1.stream.output)
      (run (World.of (WebSocketConn (tap S) fuel) E) Sh cfg (.fresh (Tap.start stream), env)
        shared n) := by
    induction n with
    | zero =>
      exact h.start cfg shared (fun _ => handshake_noClose S fuel stream)
        (fun _ => (handshake_noClose S fuel stream).silent)
    | succ n ih =>
      refine h.loopStep_of_read Sh cfg (ih fun m hm => halone m (by omega)) ?_
      intro t ht hno
      exact recv_close S hno (halone n (by omega) t ht)
  exact hholds.1

/-- A file list request in a masked binary frame. -/
def listRequestFrame : Bytes :=
  [0x82, 0x8C, 0, 0, 0, 0] ++ Proto.buildMessage Proto.MsgType.FileListReq.code [] 0

/-- A masked Close frame without a body. -/
def closeFrame : Bytes := [0x88, 0x80, 0, 0, 0, 0]

/-- A client whose frames arrive in the given reads. -/
def framesSocket (reads : List Bytes) : Socket :=
  { reads := (upgradeRequest :: reads).map .ok
    sends := List.replicate 9 (.accept 500)
    writes := []
    closed := false }

/-- The session of such a client after `n` iterations, each of which reads. -/
def framesRun (reads : List Bytes) (n : Nat) :
    ClientSession (State (Tap Socket) × List PollResult) Unit :=
  run (World.of (WebSocketConn (tap RawByteStream) 5) (schedule 0)) Shared.empty ⟨15, []⟩
    (.fresh (Tap.start (framesSocket reads)), List.replicate 3 (.ready false true)) () n

theorem nothing_follows_close_separate_reads :
    (framesRun [listRequestFrame, closeFrame] 2).finished = true ∧
      ClosesSilently (framesRun [listRequestFrame, closeFrame] 2) := by
  have halone : ∀ m < 2, ∀ t ∈ reading (World.of (WebSocketConn (tap RawByteStream) 5) (schedule 0))
      (framesRun [listRequestFrame, closeFrame] m), CloseAlone (tap RawByteStream) t.net.1 := by
    decide +kernel
  exact ⟨by decide +kernel, nothing_follows_close RawByteStream (schedule 0) Shared.empty ⟨15, []⟩ 5
    (framesSocket [listRequestFrame, closeFrame]) (List.replicate 3 (.ready false true)) () 2 halone⟩

/-- A request and a Close in one read: every write succeeds, and the file list
goes out behind the echo of the Close on a connection that is still open. -/
theorem close_then_reply :
    (framesRun [listRequestFrame ++ closeFrame] 1).finished = false ∧
      (∀ w ∈ (framesRun [listRequestFrame ++ closeFrame] 1).net.1.stream.inner.writes,
        w.accepted = w.msg.length) ∧
      ¬ ClosesSilently (framesRun [listRequestFrame ++ closeFrame] 1) := by
  refine ⟨?_, ?_, ?_⟩ <;> decide +kernel

end FaceTracking.WebSocketConn
