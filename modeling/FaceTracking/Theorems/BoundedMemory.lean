import FaceTracking.Net.WebSocketConn
import FaceTracking.Theorems.SessionDialogue

/-!
# What a client can make the terminal hold

A session buffers what it receives until a message is complete, and so does the
WebSocket carrier below it until a frame is. Both give up on a header that
announces too much, so whatever a client sends, and in whatever pieces, the
buffers stay below fixed bounds.
-/

namespace FaceTracking

open Lib Proto

/-! ## Frames -/

/-- The longest header of a frame: two bytes, the length and the mask. -/
def kMaxFrameHeader : Nat := 14

namespace Ws

/-- A buffer that needs more bytes is shorter than a header and a largest payload. -/
theorem length_of_decode_more {p : Bytes} (h : decodeFrame p kMaxPayload true = .more) :
    p.length < kMaxFrameHeader + kMaxPayload := by
  have hhead : kMaxFrameHeader = 14 := rfl
  by_cases h2 : p.length < 2
  · omega
  cases hl : frameLength p with
  | none =>
    have hshort : p.length < 10 := by
      by_contra hlong
      unfold frameLength at hl
      simp only [if_neg (show ¬ p.length < 4 by omega), if_neg hlong] at hl
      split_ifs at hl
    omega
  | some li =>
    obtain ⟨len, i⟩ := li
    have hi := frameLength_le hl
    have had : Admissible p kMaxPayload true len i := by
      by_contra hno
      have hbad := (decodeFrame_bad_iff (by decide)).mpr ⟨by omega, len, i, hl, hno⟩
      rw [hbad] at h
      cases h
    rw [decodeFrame_of_admissible (by decide) had] at h
    split at h
    · rename_i hlt
      have hle := had.len_le
      have hstart : dataStart p i ≤ i + 4 := by
        unfold dataStart
        split <;> omega
      omega
    · cases h

/-- The data of one frame was in its bytes. -/
theorem length_dataOf_item {b : Bytes} {f : Frame} {n : Nat} (h : frames.step b = .item f n) :
    (dataOf [f]).length ≤ n ∧ n ≤ b.length := by
  obtain ⟨len, i, -, hf, hn, hle⟩ := decodeFrame_item (by decide) h
  refine ⟨?_, hle⟩
  have hpayload : f.payload.length ≤ len.toNat := by
    rw [hf]
    unfold frameAt unmask
    simp only
    split
    · rw [List.length_mapIdx, List.length_take]
      omega
    · rw [List.length_take]
      omega
  have hdata : (dataOf [f]).length ≤ f.payload.length := by
    unfold dataOf
    rw [List.flatMap_singleton]
    split
    · omega
    · simp
  omega

/-- What frames carry and what is left was in the bytes. -/
theorem length_dataOf_content (b : Bytes) :
    (dataOf (content b).items).length + (content b).rest.length ≤ b.length := by
  unfold content
  induction b using frames.scan_induction isClose with
  | more b h => simp [frames.scan_more isClose h]
  | bad b h => simp [frames.scan_bad isClose h]
  | halt b f n h hf =>
    rw [frames.scan_stop isClose h hf]
    have hone := length_dataOf_item h
    simp only [List.length_drop]
    omega
  | item b f n h hf ih =>
    rw [frames.scan_item isClose h hf]
    have hone := length_dataOf_item h
    simp only [Scan.prepend_items, Scan.prepend_rest, dataOf_append, List.length_append]
    rw [List.length_drop] at ih
    omega

end Ws

/-! ## The carrier -/

namespace WebSocketConn

variable {β : Type} (S : IByteStream β)

/-- While the connection is open, an incomplete frame is all that is kept; a
read adds at most 8192 bytes to it, and what it completes is staged. -/
structure Small (c : State β) : Prop where
  total : c.rx.length + c.app.length ≤ kMaxFrameHeader + Ws.kMaxPayload + 8192
  undrained : c.closed = false → c.rx.length ≤ kMaxFrameHeader + Ws.kMaxPayload

/-- Inside the loop of `drainFrames` nothing has left `rx` yet, and what is staged
was in front of the offset. -/
theorem length_drainLoop (fuel off : Nat) (c : State β) (hoff : off ≤ c.rx.length)
    (happ : c.app.length ≤ off) :
    (drainLoop S fuel off c).2.rx = c.rx ∧
      (drainLoop S fuel off c).2.app.length ≤ c.rx.length := by
  induction fuel generalizing off c with
  | zero => exact ⟨rfl, happ.trans hoff⟩
  | succ fuel ih =>
    unfold drainLoop
    cases hs : Ws.decodeFrame (c.rx.drop off) Ws.kMaxPayload true with
    | more => exact ⟨rfl, happ.trans hoff⟩
    | bad => exact ⟨rfl, happ.trans hoff⟩
    | item f n =>
      have hone := Ws.length_dataOf_item hs
      have hle := hone.2
      rw [List.length_drop] at hle
      have hoff' : off + n ≤ (onFrame S c f).rx.length := by
        rw [onFrame_eq]
        show off + n ≤ c.rx.length
        omega
      have happ' : (onFrame S c f).app.length ≤ off + n := by
        rw [onFrame_eq]
        show (c.app ++ Ws.dataOf [f]).length ≤ off + n
        rw [List.length_append]
        omega
      have hrx : (onFrame S c f).rx = c.rx := by rw [onFrame_eq]
      simp only
      split
      · exact ⟨hrx, hrx ▸ happ'.trans hoff'⟩
      · obtain ⟨hkept, hstaged⟩ := ih (off + n) (onFrame S c f) hoff' happ'
        exact ⟨hkept.trans hrx, hrx ▸ hstaged⟩

variable {S}

/-- While a read is being drained, frame by frame, both buffers together hold at
most twice the bound. -/
theorem Small.draining {c : State β} (h : Small c) (happ : c.app = []) (hopen : c.closed = false)
    (m : Nat) :
    (drainLoop S m 0 (filled S c)).2.rx.length + (drainLoop S m 0 (filled S c)).2.app.length ≤
      2 * (kMaxFrameHeader + Ws.kMaxPayload + 8192) := by
  have hread : (bytesOf (S.read c.stream 8192).1).length ≤ 8192 := by
    cases hb : (S.read c.stream 8192).1 with
    | error e => simp
    | ok b => exact S.read_le c.stream 8192 b hb
  have hlen : (filled S c).rx.length ≤ kMaxFrameHeader + Ws.kMaxPayload + 8192 := by
    have hrx := h.undrained hopen
    show (c.rx ++ _).length ≤ _
    rw [List.length_append]
    omega
  have hnone : (filled S c).app.length ≤ 0 := by
    show c.app.length ≤ 0
    rw [happ]
    exact Nat.le_refl _
  obtain ⟨hkept, hstaged⟩ := length_drainLoop S m 0 (filled S c) (Nat.zero_le _) hnone
  rw [hkept]
  omega

theorem Small.recv {c : State β} (h : Small c) (cap : Nat) : Small (recv S c cap).2 := by
  have hcut : ∀ {c : State β} (n : Nat), Small c → Small { c with app := c.app.drop n } := by
    intro c n h
    refine ⟨?_, h.undrained⟩
    have := h.total
    simp only [List.length_drop]
    omega
  obtain ⟨-, hr⟩ | ⟨-, -, hr⟩ | ⟨-, -, hnil, hr⟩ | ⟨happ, hopen, -, hr⟩ := recv_cases S c cap
  · rw [hr]
    exact hcut cap h
  · rw [hr]
    exact h
  · rw [hr]
    have hsame : (filled S c).rx = c.rx := by
      show c.rx ++ bytesOf _ = _
      rw [hnil, List.append_nil]
    exact ⟨by rw [hsame]; exact h.total, fun hc => by rw [hsame]; exact h.undrained hc⟩
  · -- the buffer was drained before the read
    have hread : (filled S c).rx.length ≤ kMaxFrameHeader + Ws.kMaxPayload + 8192 := by
      have hle : (bytesOf (S.read c.stream 8192).1).length ≤ 8192 := by
        cases hb : (S.read c.stream 8192).1 with
        | error e => simp
        | ok b => exact S.read_le c.stream 8192 b hb
      have hrx := h.undrained hopen
      show (c.rx ++ _).length ≤ _
      rw [List.length_append]
      omega
    have happ' : (filled S c).app = [] := happ
    have hdata := Ws.length_dataOf_content (filled S c).rx
    rw [hr, handOut_state]
    refine hcut cap ?_
    rw [drainFrames_eq S (filled S c) hopen, happ', List.nil_append]
    refine ⟨by simp only; omega, fun hc => ?_⟩
    have hstarved : (Ws.content (filled S c).rx).ending = .starved := by simpa using hc
    have hmore := Ws.frames.step_rest_of_starved Ws.isClose (filled S c).rx hstarved
    exact (Ws.length_of_decode_more hmore).le

/-- The request is at most 16 KiB and one read. -/
theorem length_readRequest (fuel : Nat) (req : Bytes) (s : β) (hreq : req.length ≤ 16 * 1024 + 2048)
    {req' : Bytes} (h : (readRequest S fuel req s).1 = some req') :
    req'.length ≤ 16 * 1024 + 2048 := by
  induction fuel generalizing req s with
  | zero => cases h
  | succ fuel ih =>
    unfold readRequest at h
    split at h
    · cases h
      exact hreq
    · split at h
      · cases h
      · split at h
        · cases h
        · rename_i x b s' hread
          have hle := S.read_le s 2048 (x :: b) (by rw [hread])
          refine ih _ _ ?_ h
          rw [List.length_append]
          omega
        · split at h
          · exact ih _ _ hreq h
          · cases h

theorem Small.handshake (fuel : Nat) (s : β) : Small (handshake S fuel (.fresh s)).2 := by
  have hfresh : ∀ s : β, Small (State.fresh s) :=
    fun s => ⟨Nat.zero_le _, fun _ => Nat.zero_le _⟩
  obtain ⟨-, hr⟩ | hr | ⟨req, -, hreq, -, hr⟩ := handshake_cases S fuel (.fresh s)
  · rw [hr]
    exact hfresh _
  · rw [hr]
    exact hfresh _
  · rw [hr]
    have hlen := length_readRequest fuel [] _ (Nat.zero_le _) hreq
    have hrx : ([] ++ req.drop (bodyStart req)).length ≤ 16 * 1024 + 2048 := by
      rw [List.nil_append, List.length_drop]
      omega
    have hbound : kMaxFrameHeader + Ws.kMaxPayload = 14 + 16 * 1024 * 1024 := rfl
    refine ⟨?_, fun _ => ?_⟩
    · show ([] ++ req.drop (bodyStart req)).length + 0 ≤ _
      omega
    · show ([] ++ req.drop (bodyStart req)).length ≤ _
      omega

end WebSocketConn

/-! ## The session -/

namespace ClientSession

variable {κ ψ : Type} (W : World κ) (Sh : Shared ψ) (cfg : SessionConfig)

theorem dispatch_rx (s : ClientSession κ ψ) (chunk : Bytes) :
    (dispatch W Sh cfg s chunk).2.rx.length ≤ s.rx.length + chunk.length := by
  have hkeep : ∀ (t : ClientSession κ ψ) (m : Message), t.rx = s.rx ++ chunk →
      (onMessage W Sh cfg t m).1.rx = s.rx ++ chunk := by
    intro t m ht
    have hhandle : ∀ u : ClientSession κ ψ, u.rx = s.rx ++ chunk →
        (handleMessage W Sh u m.type m.payload).rx = s.rx ++ chunk :=
      fun u hu => ((handleMessage_acts W Sh u m.type m.payload).kept W).rx.trans hu
    unfold onMessage
    split
    · exact hhandle t ht
    · split
      · exact ht
      · split
        · exact hhandle _ ht
        · exact ht
  have hloop := dispatchLoop_eq kMaxMessage (onMessage W Sh cfg) (fun s _ => s) (s.rx ++ chunk)
    ((s.rx ++ chunk).length + 1) 0 { s with rx := s.rx ++ chunk } (Nat.zero_le _) (by omega)
  have hall := dispatched_induction (onMessage W Sh cfg) (fun s _ => s) hkeep (fun _ _ h => h)
    (s.rx ++ chunk) { s with rx := s.rx ++ chunk } (messages kMaxMessage ((s.rx ++ chunk).drop 0))
    rfl
  rw [← hloop] at hall
  unfold dispatch
  simp only
  split
  · rw [hall, List.length_append]
  · show (List.drop _ _).length ≤ _
    rw [List.length_drop, hall, List.length_append]
    omega

/-- The longest a buffer can be that does not hold a whole message. -/
def kMaxBuffered : Nat := kHeaderSize + kMaxMessage.toNat

theorem Buffered.length {s : ClientSession κ ψ} (h : Buffered s) : s.rx.length < kMaxBuffered := by
  have hmore := (sec1 kMaxMessage).step_rest_of_starved (fun _ => false) _ h.starved
  rw [h.rx]
  exact length_of_parse_more hmore

theorem readAndDispatch_rx (s : ClientSession κ ψ) :
    (readAndDispatch W Sh cfg s).2.rx.length ≤ s.rx.length + 8192 := by
  rw [readAndDispatch_eq]
  cases hr : (W.conn.recv s.net 8192).1 with
  | error e => exact Nat.le_add_right _ _
  | ok b =>
    cases b with
    | nil => exact Nat.le_add_right _ _
    | cons x b =>
      have hle := W.conn.recv_le s.net 8192 _ hr
      have hdispatch := dispatch_rx W Sh cfg (afterRecv W s) (x :: b)
      exact hdispatch.trans (Nat.add_le_add_left hle _)

/-- Over any connection a session keeps less than its cap and one read more. -/
theorem run_rx (net : κ) (shared : ψ) (n : Nat) :
    let s : ClientSession κ ψ := run W Sh cfg net shared n
    s.rx.length < kMaxBuffered + 8192 ∧ (s.finished = false → s.rx.length < kMaxBuffered) := by
  let F : ClientSession κ ψ → Prop := fun s => s.rx.length < kMaxBuffered + 8192
  have hweaken : ∀ s : ClientSession κ ψ, Listening s → F s :=
    fun s h => Nat.lt_add_right 8192 h.2.length
  have hrun : Holds Listening F (run W Sh cfg net shared n) := by
    refine run_rule W Sh cfg hweaken ?_ ?_ ?_ (fun _ h => h) ?_ n
    · exact fun s k _ h => ⟨⟨h.1.shut, h.1.opened⟩, ⟨h.2.starved, h.2.rx, h.2.shut⟩⟩
    · intro s h
      have hread := readAndDispatch_heard W Sh cfg h.1 h.2
      refine ⟨?_, fun hgo => ⟨hread.1, hread.2 hgo⟩⟩
      exact (readAndDispatch_rx W Sh cfg s).trans_lt (Nat.add_lt_add_right h.2.length 8192)
    · intro s h
      have hdeaf := frameTick_deaf W Sh cfg s
      have hstill : Listening (frameTick W Sh cfg s).2 := ⟨h.1.deaf hdeaf, h.2.deaf hdeaf⟩
      exact ⟨hweaken _ hstill, fun _ => hstill⟩
    · have hstart := start_listening W cfg net shared
      refine ⟨?_, hstart.2⟩
      unfold start
      simp only
      split
      · exact Nat.lt_add_left kMaxBuffered (show 0 < 8192 by decide)
      · exact Nat.lt_add_left kMaxBuffered (show 0 < 8192 by decide)
  exact ⟨hrun.1, fun hf => (hrun.2 hf).2.length⟩

end ClientSession

open ClientSession

/-- **Bounded memory.** However a WebSocket client behaves, and over any byte
stream: after every iteration of a session's run the session holds fewer bytes
than a header, a largest message and one read, and its carrier no more than a
frame header, a largest frame and one read; while the carrier drains what a read
has added, frame by frame, it holds at most twice that. -/
theorem bounded_memory {β ε ψ : Type} (S : IByteStream β) (fuel : Nat) (E : Environment ε)
    (Sh : Shared ψ) (cfg : SessionConfig) (b : β) (e : ε) (shared : ψ) (n : Nat) :
    let s := run (World.of (WebSocketConn S fuel) E) Sh cfg (.fresh b, e) shared n
    s.rx.length < 12 + 32 * 1024 * 1024 + 8192 ∧
    (s.finished = false → s.rx.length < 12 + 32 * 1024 * 1024) ∧
    s.net.1.rx.length + s.net.1.app.length ≤ 14 + 16 * 1024 * 1024 + 8192 ∧
    (s.net.1.app = [] → s.net.1.closed = false → ∀ m,
      let d := (WebSocketConn.drainLoop S m 0 (WebSocketConn.filled S s.net.1)).2
      d.rx.length + d.app.length ≤ 2 * (14 + 16 * 1024 * 1024 + 8192)) := by
  let W : World (WebSocketConn.State β × ε) := World.of (WebSocketConn S fuel) E
  let I : WebSocketConn.State β × ε → Prop := fun k => WebSocketConn.Small k.1
  have hinv : NetInvariant W I I := by
    have hsend : ∀ (k : WebSocketConn.State β × ε) (b : Bytes), I k → I (W.conn.send k b).2 :=
      fun k b h => ⟨h.total, h.undrained⟩
    exact ⟨fun _ h => h, fun k m _ h => hsend k _ h, fun k f h => ⟨fun _ => hsend k _ h, hsend k _ h⟩,
      fun _ h => h, fun _ h => h, fun _ _ h => h, fun _ h => ⟨h.total, h.undrained⟩⟩
  have hnet : ∀ n, NetHolds I I (run W Sh cfg (.fresh b, e) shared n) := by
    intro n
    induction n with
    | zero =>
      have hshake : I (W.conn.handshake (.fresh b, e)).2 := WebSocketConn.Small.handshake fuel b
      exact hinv.start cfg shared (fun _ => hshake) (fun _ => hshake)
    | succ n ih => exact hinv.loopStep Sh cfg ih fun t _ h => WebSocketConn.Small.recv h 8192
  obtain ⟨hall, hopen⟩ := run_rx W Sh cfg (.fresh b, e) shared n
  exact ⟨hall, hopen, (hnet n).1.total, fun happ hup m => (hnet n).1.draining happ hup m⟩

end FaceTracking
