import FaceTracking.Net.WebSocketConn

/-!
# The WebSocket carrier is a faithful byte pipe

Over any byte stream, watched by `tap`, and for any sequence of `recv` calls
after a successful upgrade: what has been handed out, what is staged and what
is still to be de-framed make up the application data of everything the client
sent behind its request, and the replies written are the ones the consumed
frames ask for.

The conservation law is `Piped`. Its witness is the cut between consumed and
unconsumed client bytes: the consumed ones decode, on their own, to exactly the
frames answered and staged so far. `Piped.recv` is the step, `Piped.recvs` the
run.
-/

namespace FaceTracking.WebSocketConn

open Lib

variable {β : Type} (S : IByteStream β)

/-- The client bytes behind the first blank line of its request. -/
def body (input : Bytes) : Bytes := input.drop (bodyStart input)

theorem bodyStart_le {input : Bytes} (h : (find? crlf2 input).isSome = true) :
    bodyStart input ≤ input.length := by
  obtain ⟨k, hk⟩ := Option.isSome_iff_exists.mp h
  have hle := find?_le_length hk
  rw [bodyStart, hk]
  exact hle

/-- Bytes that arrive behind the blank line belong to the body and leave the
request as it is. -/
theorem body_append {input : Bytes} (h : (find? crlf2 input).isSome = true) (b : Bytes) :
    (find? crlf2 (input ++ b)).isSome = true ∧ body (input ++ b) = body input ++ b ∧
      requestKey (input ++ b) = requestKey input := by
  have hle := bodyStart_le h
  obtain ⟨k, hk⟩ := Option.isSome_iff_exists.mp h
  have hk' := find?_append hk b
  have hstart : bodyStart (input ++ b) = bodyStart input := by rw [bodyStart, bodyStart, hk, hk']
  refine ⟨by rw [hk']; rfl, ?_, ?_⟩
  · rw [body, body, hstart, List.drop_append_of_le_length hle]
  · rw [requestKey, requestKey, hstart, List.take_append_of_le_length (by omega)]

/-- The frames consumed so far: those of the client bytes no longer in `rx`. -/
def consumed (c : State (Tap β)) : List Ws.Frame :=
  (Ws.content ((body c.stream.input).take ((body c.stream.input).length - c.rx.length))).items

/-- One Pong for each Ping, in order, then the echo of a Close. -/
def replies (fs : List Ws.Frame) : List Bytes :=
  (fs.filter (fun f => f.opcode == Ws.kOpPing)).map
      (fun f => Ws.encodeFrame [] Ws.kOpPong f.payload) ++
    ((fs.find? Ws.isClose).map (fun f => Ws.encodeFrame [] Ws.kOpClose f.payload)).toList

/-! ## The stream behind the replies -/

theorem answers_tap (fs : List Ws.Frame) (t : Tap β) :
    (fs.foldl (answer (tap S)) t).input = t.input ∧
      (fs.foldl (answer (tap S)) t).output = t.output ++ fs.filterMap replyTo := by
  induction fs generalizing t with
  | nil => simp
  | cons f fs ih =>
    rw [List.foldl_cons, List.filterMap_cons]
    obtain ⟨hin, hout⟩ := ih (answer (tap S) t f)
    rw [hin, hout]
    unfold answer
    cases replyTo f with
    | none => simp
    | some b => simp [tap]

theorem filterMap_replyTo_of_not_close (fs : List Ws.Frame) (h : ∀ f ∈ fs, Ws.isClose f = false) :
    fs.filterMap replyTo = (fs.filter (fun f => f.opcode == Ws.kOpPing)).map
      (fun f => Ws.encodeFrame [] Ws.kOpPong f.payload) := by
  induction fs with
  | nil => rfl
  | cons f fs ih =>
    have hf : f.opcode ≠ Ws.kOpClose := by simpa [Ws.isClose] using h f List.mem_cons_self
    rw [List.filterMap_cons, ih (fun x hx => h x (List.mem_cons_of_mem f hx))]
    by_cases hp : f.opcode = Ws.kOpPing
    · simp [replyTo, hp]
    · simp [replyTo, hp, hf]

/-- Since a Close is the last frame of a scan, answering frame by frame writes
the Pongs and then the echo. -/
theorem filterMap_replyTo (b : Bytes) :
    (Ws.content b).items.filterMap replyTo = replies (Ws.content b).items := by
  obtain ⟨fs, hfs, ⟨hi, -⟩ | ⟨z, hz, hi, -⟩⟩ := Ws.frames.items_of_scan Ws.isClose b
  all_goals
    have hnone : fs.find? Ws.isClose = none :=
      List.find?_eq_none.mpr (fun f hf => by simp [hfs f hf])
    rw [Ws.content, hi, replies]
  · rw [filterMap_replyTo_of_not_close fs hfs, hnone]
    simp
  · have hop : z.opcode = Ws.kOpClose := by simpa [Ws.isClose] using hz
    rw [List.filterMap_append, filterMap_replyTo_of_not_close fs hfs, List.filter_append,
      List.find?_append, hnone]
    simp [replyTo, hop, hz, Ws.kOpClose, Ws.kOpPing]

/-! ## The conservation law -/

/-- The connection `c` has handed out `out`, having consumed the client bytes
`pre` behind the request and holding the rest of them in `rx`. -/
structure Piped (out pre : Bytes) (c : State (Tap β)) : Prop where
  found : (find? crlf2 c.stream.input).isSome = true
  split : body c.stream.input = pre ++ c.rx
  whole : (Ws.content pre).rest = []
  live : c.closed = false → (Ws.content pre).ending = .starved
  /-- Nothing behind the consumed bytes counts once the connection is closed. -/
  dead : c.closed = true → (Ws.content (pre ++ c.rx)).items = (Ws.content pre).items
  data : out ++ c.app = Ws.dataOf (Ws.content pre).items
  output : c.stream.output =
    response (requestKey c.stream.input) :: (Ws.content pre).items.filterMap replyTo

namespace Piped

variable {out pre : Bytes} {c : State (Tap β)}

/-- Handing out staged bytes keeps the pipe. -/
theorem serve (h : Piped out pre c) (cap : Nat) :
    Piped (out ++ bytesOf (serve c cap).1) pre (serve c cap).2 :=
  { h with
    data := by
      show out ++ c.app.take cap ++ c.app.drop cap = _
      rw [List.append_assoc, List.take_append_drop, h.data] }

/-- A read that delivered nothing keeps the pipe. -/
theorem idle (h : Piped out pre c) (t : Tap β) (hin : t.input = c.stream.input)
    (hout : t.output = c.stream.output) : Piped out pre { c with stream := t } :=
  { h with
    found := by rw [hin]; exact h.found
    split := by rw [hin]; exact h.split
    output := by rw [hout, hin]; exact h.output }

/-- Draining what a read delivered keeps the pipe, with what it took now
consumed. -/
theorem drain (h : Piped out pre c) (hc : c.closed = false) (t : Tap β) (b : Bytes)
    (hin : t.input = c.stream.input ++ b) (hout : t.output = c.stream.output) :
    ∃ pre', Piped out pre'
      (drainFrames (tap S) { c with stream := t, rx := c.rx ++ b }) := by
  rw [drainFrames_eq (tap S) { c with stream := t, rx := c.rx ++ b } hc]
  simp only
  generalize hsc : Ws.content (c.rx ++ b) = sc
  obtain ⟨hin', hout'⟩ := answers_tap S sc.items t
  -- the newly consumed bytes decode to the frames just taken
  have hnew : Ws.content ((c.rx ++ b).take ((c.rx ++ b).length - sc.rest.length)) =
      ⟨sc.items, [], if sc.ending = .halted then .halted else .starved⟩ := by
    have hs := Ws.frames.scan_consumed Ws.isClose (c.rx ++ b)
    rwa [show Ws.frames.scan Ws.isClose (c.rx ++ b) = sc from hsc] at hs
  obtain ⟨new, hrest⟩ := Ws.frames.rest_suffix Ws.isClose (c.rx ++ b)
  rw [show Ws.frames.scan Ws.isClose (c.rx ++ b) = sc from hsc] at hrest
  have hlen : (c.rx ++ b).length - sc.rest.length = new.length := by
    rw [← hrest, List.length_append]
    omega
  rw [hlen, ← hrest, List.take_left] at hnew
  have hpre : ∀ x, Ws.content (pre ++ x) = (Ws.content x).prepend (Ws.content pre).items := by
    intro x
    have hs := Ws.frames.scan_append Ws.isClose pre x (h.live hc)
    rw [show (Ws.frames.scan Ws.isClose pre).rest = [] from h.whole, List.nil_append] at hs
    exact hs
  have hcons : Ws.content (pre ++ new) = ⟨(Ws.content pre).items ++ sc.items, [],
      if sc.ending = .halted then .halted else .starved⟩ := by
    rw [hpre, hnew]
    rfl
  refine ⟨pre ++ new, ?_, ?_, ?_, ?_, ?_, ?_, ?_⟩
  · rw [hin', hin]
    exact (body_append h.found b).1
  · rw [hin', hin, (body_append h.found b).2.1, h.split, List.append_assoc, ← hrest,
      List.append_assoc]
  · rw [hcons]
  · intro hopen
    rw [hcons]
    simp only [bne_eq_false_iff_eq] at hopen
    simp [hopen]
  · intro _
    rw [hcons, List.append_assoc, hrest, hpre, hsc]
    rfl
  · rw [hcons, Ws.dataOf_append, ← h.data, List.append_assoc]
  · rw [hout', hout, h.output, hcons, List.filterMap_append, hin', hin,
      (body_append h.found b).2.2]
    rfl

/-- One call of `recv` keeps the pipe. -/
theorem recv (h : Piped out pre c) (cap : Nat) :
    ∃ pre', Piped (out ++ bytesOf (recv (tap S) c cap).1) pre'
      (WebSocketConn.recv (tap S) c cap).2 := by
  obtain ⟨-, hr⟩ | ⟨-, -, hr⟩ | ⟨-, -, hb, hr⟩ | ⟨-, hopen, -, hr⟩ := recv_cases (tap S) c cap
  · rw [hr]
    exact ⟨pre, h.serve cap⟩
  · rw [hr]
    exact ⟨pre, by simpa using h⟩
  · have hin : ((tap S).read c.stream 8192).2.input = c.stream.input := by
      change c.stream.input ++ bytesOf ((tap S).read c.stream 8192).1 = _
      rw [hb, List.append_nil]
    have hidle := h.idle ((tap S).read c.stream 8192).2 hin rfl
    rw [hr, hb, List.append_nil, filled, hb, List.append_nil]
    exact ⟨pre, hidle⟩
  · obtain ⟨pre', hd⟩ := h.drain S hopen ((tap S).read c.stream 8192).2
      (bytesOf ((tap S).read c.stream 8192).1) rfl rfl
    rw [hr, handOut_bytes, handOut_state]
    exact ⟨pre', hd.serve cap⟩

/-- Any sequence of calls keeps the pipe. -/
theorem recvs (fuel : Nat) (h : Piped out pre c) (caps : List Nat) :
    ∃ pre', Piped (out ++ returned (recvs (WebSocketConn (tap S) fuel) c caps).1) pre'
      (FaceTracking.recvs (WebSocketConn (tap S) fuel) c caps).2 := by
  induction caps generalizing out pre c with
  | nil => exact ⟨pre, by simpa [FaceTracking.recvs, returned] using h⟩
  | cons cap caps ih =>
    obtain ⟨pre₁, h₁⟩ := h.recv S cap
    obtain ⟨pre₂, h₂⟩ := ih h₁
    exact ⟨pre₂, by simpa [FaceTracking.recvs, returned, WebSocketConn] using h₂⟩

/-- In a pipe nothing is lost, repeated or reordered between the buffers. -/
theorem conserved (h : Piped out pre c) :
    out ++ c.app ++ (if c.closed then [] else Ws.deframe c.rx) =
      Ws.deframe (body c.stream.input) := by
  rw [h.data, h.split]
  unfold Ws.deframe
  cases hc : c.closed with
  | true =>
    rw [h.dead hc]
    simp
  | false =>
    have hs := Ws.frames.scan_append Ws.isClose pre c.rx (h.live hc)
    rw [show (Ws.frames.scan Ws.isClose pre).rest = [] from h.whole, List.nil_append] at hs
    rw [show Ws.content (pre ++ c.rx) = _ from hs]
    simp [Ws.content]

/-- The cut is where `rx` begins. -/
theorem consumed_eq (h : Piped out pre c) : consumed c = (Ws.content pre).items := by
  have hlen : (body c.stream.input).length - c.rx.length = pre.length := by
    rw [h.split, List.length_append]
    omega
  rw [consumed, hlen, h.split, List.take_left]

end Piped

/-! ## The upgrade -/

/-- The request loop returns all bytes it has read, the blank line among them. -/
theorem readRequest_tap (fuel : Nat) (req : Bytes) (t : Tap β) (hin : t.input = req) {r : Bytes}
    (h : (readRequest (tap S) fuel req t).1 = some r) :
    (readRequest (tap S) fuel req t).2.input = r ∧
      (readRequest (tap S) fuel req t).2.output = t.output ∧ (find? crlf2 r).isSome = true := by
  induction fuel generalizing req t with
  | zero => cases h
  | succ fuel ih =>
    unfold readRequest at h ⊢
    by_cases hf : (find? crlf2 req).isSome = true
    · rw [if_pos hf] at h ⊢
      cases h
      exact ⟨hin, rfl, hf⟩
    rw [if_neg hf] at h ⊢
    by_cases hg : req.length > 16 * 1024
    · rw [if_pos hg] at h
      cases h
    rw [if_neg hg] at h ⊢
    have hin' : ((tap S).read t 2048).2.input = t.input ++ bytesOf ((tap S).read t 2048).1 := rfl
    have hout' : ((tap S).read t 2048).2.output = t.output := rfl
    rcases hr : (tap S).read t 2048 with ⟨(e | ⟨_ | ⟨x, b⟩⟩), t'⟩
    · rw [hr] at h hin' hout'
      simp only at h ⊢
      by_cases he : e = .EINTR
      · rw [if_pos he] at h ⊢
        have := ih req t' (by rw [hin', hin]; exact List.append_nil req) h
        rwa [hout'] at this
      · rw [if_neg he] at h
        cases h
    · rw [hr] at h
      cases h
    · rw [hr] at h hin' hout'
      simp only at h ⊢
      have := ih (req ++ x :: b) t' (by rw [hin', hin]; rfl) h
      rwa [hout'] at this

/-- A successful upgrade starts the pipe with nothing consumed. -/
theorem piped_of_handshake {fuel : Nat} {s : β}
    (h : (handshake (tap S) fuel (.fresh (Tap.start s))).1 = true) :
    Piped [] [] (handshake (tap S) fuel (.fresh (Tap.start s))).2 := by
  obtain ⟨-, hr⟩ | hr | ⟨req, -, hreq, -, hr⟩ := handshake_cases (tap S) fuel (.fresh (Tap.start s))
  · rw [hr] at h
    cases h
  · rw [hr] at h
    cases h
  obtain ⟨hin, hout, hf⟩ := readRequest_tap S fuel [] ((tap S).handshake (Tap.start s)).2 rfl hreq
  rw [hr]
  refine ⟨?_, ?_, rfl, fun _ => rfl, (fun h => by cases h), rfl, ?_⟩
  · change (find? crlf2 (readRequest (tap S) fuel []
      ((tap S).handshake (Tap.start s)).2).2.input).isSome = true
    rw [hin]
    exact hf
  · change body (readRequest (tap S) fuel [] ((tap S).handshake (Tap.start s)).2).2.input =
      [] ++ ([] ++ req.drop (bodyStart req))
    rw [hin, body, List.nil_append, List.nil_append]
  · change (readRequest (tap S) fuel [] ((tap S).handshake (Tap.start s)).2).2.output ++
        [response (requestKey req)] = response (requestKey
          (readRequest (tap S) fuel [] ((tap S).handshake (Tap.start s)).2).2.input) :: _
    rw [hout, hin]
    rfl

/-! ## A closed connection -/

/-- Once closed, `recv` hands out what is staged and does nothing else. -/
theorem recv_of_closed {c : State β} (hc : c.closed = true) (cap : Nat) :
    recv S c cap = (.ok (c.app.take cap), { c with app := c.app.drop cap }) := by
  unfold recv
  by_cases ha : c.app ≠ []
  · rw [if_pos ha]
    rfl
  · rw [if_neg ha, if_pos hc, not_not.mp ha]
    cases c
    simp_all

/-- Any number of calls on a closed connection leave the stream alone, hand out
the staged bytes in order, and then report the end. -/
theorem recvs_of_closed (fuel : Nat) (caps : List Nat) {c : State β} (hc : c.closed = true) :
    (recvs (WebSocketConn S fuel) c caps).2.stream = c.stream ∧
      (∀ r ∈ (recvs (WebSocketConn S fuel) c caps).1, ∃ b, r = .ok b) ∧
      returned (recvs (WebSocketConn S fuel) c caps).1 ++
        (recvs (WebSocketConn S fuel) c caps).2.app = c.app ∧
      (c.app = [] → ∀ r ∈ (recvs (WebSocketConn S fuel) c caps).1, r = .ok []) := by
  induction caps generalizing c with
  | nil => simp [recvs, returned]
  | cons cap caps ih =>
    have hr : (WebSocketConn S fuel).recv c cap =
        (.ok (c.app.take cap), { c with app := c.app.drop cap }) := recv_of_closed S hc cap
    obtain ⟨hstream, hok, hdata, hnil⟩ :=
      ih (c := { c with app := c.app.drop cap }) hc
    simp only [recvs, hr]
    refine ⟨hstream, ?_, ?_, ?_⟩
    · intro r hm
      rcases List.mem_cons.mp hm with rfl | hm
      · exact ⟨_, rfl⟩
      · exact hok r hm
    · rw [returned, List.flatMap_cons, List.append_assoc]
      show c.app.take cap ++ (returned _ ++ _) = c.app
      rw [hdata, List.take_append_drop]
    · intro ha r hm
      rcases List.mem_cons.mp hm with rfl | hm
      · rw [ha, List.take_nil]
      · exact hnil (by rw [ha, List.drop_nil]) r hm

/-! ## Main result -/

/-- **The byte pipe.** After a successful upgrade and any sequence of `recv`
calls: nothing of the application data is lost, repeated or reordered between
the buffers; exactly the consumed Pings and the consumed Close have been
answered; and a closed connection never touches the stream again. -/
theorem byte_pipe (fuel : Nat) (s : β) (caps : List Nat)
    (hup : ((WebSocketConn (tap S) fuel).handshake (.fresh (Tap.start s))).1 = true) :
    let W := WebSocketConn (tap S) fuel
    let c₀ := (W.handshake (.fresh (Tap.start s))).2
    let rs := (recvs W c₀ caps).1
    let c := (recvs W c₀ caps).2
    (returned rs ++ c.app ++ (if c.closed then [] else Ws.deframe c.rx) =
        Ws.deframe (body c.stream.input)) ∧
      c.rx <:+ body c.stream.input ∧
      c.stream.output = response (requestKey c.stream.input) :: replies (consumed c) ∧
      (c.closed = true → ∀ more,
        (recvs W c more).2.stream = c.stream ∧
        (∀ r ∈ (recvs W c more).1, ∃ b, r = .ok b) ∧
        returned (recvs W c more).1 ++ (recvs W c more).2.app = c.app ∧
        (c.app = [] → ∀ r ∈ (recvs W c more).1, r = .ok [])) := by
  intro W c₀ rs c
  obtain ⟨pre, h⟩ := (piped_of_handshake S hup).recvs S fuel caps
  refine ⟨?_, ⟨pre, h.split.symm⟩, ?_, fun hc more => recvs_of_closed (tap S) fuel more hc⟩
  · exact h.conserved
  · have ho := h.output
    rw [filterMap_replyTo, ← h.consumed_eq] at ho
    exact ho

/-- A socket whose first read carries the request and three bytes of a masked
Ping; the rest of the Ping arrives with the second read. -/
def splitPing : Socket :=
  { reads :=
      [.ok (utf8 "GET / HTTP/1.1\r\nSec-WebSocket-Key: x\r\n\r\n" ++ [0x89, 0x81, 0]),
        .ok [0, 0, 0, 0x41]]
    sends := [.accept 500]
    writes := []
    closed := false }

theorem byte_pipe_split_ping :
    let W := WebSocketConn (tap RawByteStream) 5
    let c := (recvs W (W.handshake (.fresh (Tap.start splitPing))).2 [10]).2
    consumed c = [⟨Ws.kOpPing, true, [0x41]⟩] ∧
      c.stream.output = response (requestKey c.stream.input) :: replies (consumed c) := by
  have hup : ((WebSocketConn (tap RawByteStream) 5).handshake
      (.fresh (Tap.start splitPing))).1 = true := by
    decide +kernel
  exact ⟨by decide +kernel, (byte_pipe RawByteStream 5 splitPing [10] hup).2.2.1⟩

end FaceTracking.WebSocketConn
