import FaceTracking.Net.WebSocketConn
import FaceTracking.Net.WebSocketSyntax

/-!
# One SEC1 frame is one WebSocket message

Whatever a carrier does after its upgrade, it writes one frame for each call
of `send` and one for each Ping or Close it answers. `framesOf` names these
frames call by call; `run_writes` says that each is one write of the stream,
and `one_message` that the bytes written decode to the same frames, with
nothing left over, by a client that expects no mask.
-/

namespace FaceTracking.WebSocketConn

open Lib

/-! ## A stream that keeps its writes -/

/-- A stream's state together with the buffers given to its writes and what
they answered. -/
structure Journal (β : Type) where
  inner : β
  writes : List (Bytes × Bool)

def journal {β : Type} (S : IByteStream β) : IByteStream (Journal β) where
  handshake j := ((S.handshake j.inner).1, { j with inner := (S.handshake j.inner).2 })
  read j cap := ((S.read j.inner cap).1, { j with inner := (S.read j.inner cap).2 })
  writeAll j b :=
    ((S.writeAll j.inner b).1,
      { inner := (S.writeAll j.inner b).2, writes := j.writes ++ [(b, (S.writeAll j.inner b).1)] })
  close j := { j with inner := S.close j.inner }
  read_le j cap b h := S.read_le j.inner cap b h

/-- The buffers a stream took entirely, one behind the other. -/
def Journal.written {β : Type} (j : Journal β) : Bytes :=
  j.writes.flatMap fun w => if w.2 then w.1 else []

def Journal.AllSent {β : Type} (j : Journal β) : Prop := ∀ w ∈ j.writes, w.2 = true

instance {β : Type} (j : Journal β) : Decidable j.AllSent :=
  inferInstanceAs (Decidable (∀ w ∈ j.writes, _))

theorem Journal.written_of_allSent {β : Type} {j : Journal β} (h : j.AllSent) :
    j.written = (j.writes.map Prod.fst).flatten := by
  unfold written
  rw [List.flatMap_def]
  congr 1
  apply List.map_congr_left
  intro w hw
  rw [if_pos (h w hw)]

/-! ## Calls and their frames -/

/-- What a session calls on its carrier. -/
inductive Call where
  | send (data : Bytes)
  | recv (cap : Nat)
deriving DecidableEq, Repr

variable {β : Type} (S : IByteStream β)

def call (c : State β) : Call → State β
  | .send data => (send S c data).2
  | .recv cap => (recv S c cap).2

def calls (c : State β) (cs : List Call) : State β := cs.foldl (call S) c

/-- The frame that answers a frame: a Pong for a Ping, a Close for a Close. -/
def replyFrame (f : Ws.Frame) : Option Ws.Frame :=
  if f.opcode = Ws.kOpPing then some ⟨Ws.kOpPong, true, f.payload⟩
  else if f.opcode = Ws.kOpClose then some ⟨Ws.kOpClose, true, f.payload⟩
  else none

/-- The frames a call makes the carrier write: the message it sends, or the
replies to what it reads. -/
def framesOf (c : State β) : Call → List Ws.Frame
  | .send data => [⟨Ws.kOpBinary, true, data⟩]
  | .recv _ =>
    if c.app ≠ [] ∨ c.closed = true then []
    else
      match (S.read c.stream 8192).1 with
      | .ok (x :: b) => (Ws.content (c.rx ++ x :: b)).items.filterMap replyFrame
      | _ => []

/-- The frames of a sequence of calls. -/
def runFrames (c : State β) : List Call → List Ws.Frame
  | [] => []
  | k :: ks => framesOf S c k ++ runFrames (call S c k) ks

/-- A frame as the carrier writes it. -/
def encode (f : Ws.Frame) : Bytes := Ws.encodeFrame [] f.opcode f.payload

theorem replyTo_eq (f : Ws.Frame) : replyTo f = (replyFrame f).map encode := by
  unfold replyTo replyFrame
  split
  · rfl
  · split <;> rfl

/-! ## One write for each frame -/

theorem answers_journal (fs : List Ws.Frame) (j : Journal β) :
    (fs.foldl (answer (journal S)) j).writes.map Prod.fst =
      j.writes.map Prod.fst ++ (fs.filterMap replyFrame).map encode := by
  induction fs generalizing j with
  | nil => simp
  | cons f fs ih =>
    rw [List.foldl_cons, ih, List.filterMap_cons]
    unfold answer
    rw [replyTo_eq]
    cases replyFrame f with
    | none => rfl
    | some r => simp [journal]

theorem call_writes (c : State (Journal β)) (k : Call) :
    (call (journal S) c k).stream.writes.map Prod.fst =
      c.stream.writes.map Prod.fst ++ (framesOf (journal S) c k).map encode := by
  cases k with
  | send data => simp [call, send, framesOf, encode, journal]
  | recv cap =>
    have hquiet : ((journal S).read c.stream 8192).2.writes = c.stream.writes := rfl
    unfold call framesOf
    simp only
    obtain ⟨ha, hr⟩ | ⟨ha, hc, hr⟩ | ⟨ha, hc, hb, hr⟩ | ⟨ha, hc, hb, hr⟩ :=
      recv_cases (journal S) c cap
    · simp [hr, ha, serve]
    · simp [hr, hc]
    · rw [hr, if_neg (by simp [ha, hc])]
      rcases hres : ((journal S).read c.stream 8192).1 with e | _ | ⟨x, b⟩
      · simpa [filled] using congrArg (List.map Prod.fst) hquiet
      · simpa [filled] using congrArg (List.map Prod.fst) hquiet
      · rw [hres] at hb
        cases hb
    · rw [hr, handOut_state, drainFrames_eq (journal S) (filled (journal S) c) hc,
        if_neg (by simp [ha, hc])]
      rcases hres : ((journal S).read c.stream 8192).1 with e | _ | ⟨x, b⟩
      · rw [hres] at hb
        exact absurd rfl hb
      · rw [hres] at hb
        exact absurd rfl hb
      · simp only [answers_journal, filled, hres, bytesOf_ok]
        exact congrArg (fun w : List (Bytes × Bool) => w.map Prod.fst ++ _) hquiet

theorem calls_writes (c : State (Journal β)) (ks : List Call) :
    (calls (journal S) c ks).stream.writes.map Prod.fst =
      c.stream.writes.map Prod.fst ++ (runFrames (journal S) c ks).map encode := by
  induction ks generalizing c with
  | nil => simp [calls, runFrames]
  | cons k ks ih =>
    have h := ih (call (journal S) c k)
    rw [runFrames, List.map_append, ← List.append_assoc, ← call_writes]
    exact h

/-! ## The frames are the server's -/

/-- A final frame, either a binary message or a short Pong or Close. -/
def ServerMade (f : Ws.Frame) : Prop :=
  f.fin = true ∧ (f.opcode = Ws.kOpBinary ∨
    (f.opcode = Ws.kOpPong ∨ f.opcode = Ws.kOpClose) ∧ f.payload.length ≤ 125)

/-- A reply to a decoded frame is as short as the frame. -/
theorem replyFrame_made {f r : Ws.Frame} {b : Bytes} {n : Nat}
    (hf : Ws.decodeFrame b Ws.kMaxPayload true = .item f n) (h : replyFrame f = some r) :
    ServerMade r := by
  obtain ⟨g, had, rfl, -, -⟩ := Ws.exists_of_item (by decide) hf
  -- the decoder admits only short control frames, and a reply has the same payload
  have hop : (UInt8.ofNat g.opcode.val).toNat = g.opcode.val := by
    rw [UInt8.toNat_ofNat', Nat.mod_eq_of_lt (lt_trans g.opcode.isLt (by decide))]
  unfold replyFrame at h
  split at h
  · rename_i hping
    cases h
    have h9 : g.opcode.val = 9 := by rw [← hop]; exact congrArg UInt8.toNat hping
    exact ⟨rfl, .inr ⟨.inl rfl, (had.control (by omega)).2⟩⟩
  · split at h
    · rename_i hclose
      cases h
      have h8 : g.opcode.val = 8 := by rw [← hop]; exact congrArg UInt8.toNat hclose
      exact ⟨rfl, .inr ⟨.inr rfl, (had.control (by omega)).2⟩⟩
    · cases h

theorem framesOf_made (c : State β) (k : Call) : ∀ f ∈ framesOf S c k, ServerMade f := by
  intro f hf
  cases k with
  | send data =>
    rw [List.mem_singleton.mp hf]
    exact ⟨rfl, .inl rfl⟩
  | recv cap =>
    unfold framesOf at hf
    simp only at hf
    split at hf
    · cases hf
    · split at hf
      · obtain ⟨x, hx, hr⟩ := List.mem_filterMap.mp hf
        obtain ⟨b', n, hstep⟩ := Ws.frames.exists_step_of_mem Ws.isClose _ hx
        exact replyFrame_made hstep hr
      · cases hf

theorem runFrames_made (c : State β) (ks : List Call) : ∀ f ∈ runFrames S c ks, ServerMade f := by
  induction ks generalizing c with
  | nil =>
    intro f hf
    cases hf
  | cons k ks ih =>
    intro f hf
    rcases List.mem_append.mp hf with hf | hf
    · exact framesOf_made S c k f hf
    · exact ih (call S c k) f hf

/-- A server's frame is written without a mask, its length in the shortest form.
-/
theorem encode_made {f : Ws.Frame} (hf : ServerMade f) (hlen : f.payload.length < 2 ^ 64) :
    ∃ g : Ws.WireFrame, encode f = g.bytes ∧ g.toFrame = f ∧ g.mask = none ∧
      g.form = .shortest f.payload.length ∧ (8 ≤ g.opcode.val → f.payload.length ≤ 125) := by
  have hwire : ∀ o : Fin 16, f.opcode = UInt8.ofNat o.val →
      encode f = (Ws.serverFrame o f.payload hlen).bytes ∧
        (Ws.serverFrame o f.payload hlen).toFrame = f := by
    intro o ho
    refine ⟨?_, Ws.Frame.ext ho.symm hf.1.symm rfl⟩
    rw [encode, ho, Ws.encodeFrame_eq_bytes]
  obtain ⟨-, hbin | ⟨hpong | hclose, hshort⟩⟩ := hf
  -- the opcodes of Binary, Pong and Close
  · obtain ⟨hb, ht⟩ := hwire 2 hbin
    exact ⟨_, hb, ht, rfl, rfl, fun h => absurd (show 8 ≤ 2 from h) (by decide)⟩
  · obtain ⟨hb, ht⟩ := hwire 10 hpong
    exact ⟨_, hb, ht, rfl, rfl, fun _ => hshort⟩
  · obtain ⟨hb, ht⟩ := hwire 8 hclose
    exact ⟨_, hb, ht, rfl, rfl, fun _ => hshort⟩

end FaceTracking.WebSocketConn

namespace FaceTracking.Ws

open Lib

/-- The decoder under any limit. -/
def decoder (maxPayload : Nat) (hM : maxPayload < 2 ^ 63) (requireMasked : Bool) :
    Decoder UInt8 Frame where
  step b := decodeFrame b maxPayload requireMasked
  step_nil := rfl
  item_pos h := by
    obtain ⟨len, i, had, -, hn, -⟩ := decodeFrame_item hM h
    have hi := frameLength_le had.length
    rw [hn]
    exact Nat.add_pos_left (lt_of_lt_of_le (by omega) (le_dataStart _ i)) _
  item_le h := by
    obtain ⟨-, -, -, -, -, hle⟩ := decodeFrame_item hM h
    exact hle
  item_local h := decodeFrame_local hM h
  bad_append h := decodeFrame_bad_append hM h

/-- All frames a byte string holds: frames are taken off the front for as long
as the decoder finds one. -/
def decodeAll (maxPayload : Nat) (hM : maxPayload < 2 ^ 63) (requireMasked : Bool) (b : Bytes) :
    Scan UInt8 Frame :=
  (decoder maxPayload hM requireMasked).scan (fun _ => false) b

end FaceTracking.Ws

namespace FaceTracking.WebSocketConn

open Lib

variable {β : Type} (S : IByteStream β)

/-- A carrier whose stream starts to be watched. -/
def watched (c : State β) : State (Journal β) := c.map fun s => ⟨s, []⟩

/-- **One SEC1 frame is one message.** For every carrier and every sequence of
calls of `send` and `recv`: if all writes of the stream succeed, the bytes
written decode, without masks and under a limit no payload exceeds, to exactly
the frames of the calls, with nothing left over. Each frame is one write; it
is a binary message or a short reply, and its length is in the shortest form. -/
theorem one_message (c : State β) (ks : List Call) (M : Nat) (hM : M < 2 ^ 63)
    (hsent : (calls (journal S) (watched c) ks).stream.AllSent)
    (hlimit : ∀ f ∈ runFrames (journal S) (watched c) ks, f.payload.length ≤ M) :
    Ws.decodeAll M hM false (calls (journal S) (watched c) ks).stream.written =
        ⟨runFrames (journal S) (watched c) ks, [], .starved⟩ ∧
      (calls (journal S) (watched c) ks).stream.writes.map Prod.fst =
        (runFrames (journal S) (watched c) ks).map encode ∧
      ∀ f ∈ runFrames (journal S) (watched c) ks, ServerMade f ∧
        ∃ g : Ws.WireFrame, encode f = g.bytes ∧ g.mask = none ∧ g.toFrame = f ∧
          ∀ form : Ws.LengthForm, f.payload.length < form.limit → g.form.width ≤ form.width := by
  have hwrites := calls_writes S (watched c) ks
  have hstart : (watched c).stream.writes = [] := rfl
  rw [hstart, List.map_nil, List.nil_append] at hwrites
  have hmade := runFrames_made (journal S) (watched c) ks
  have hfit : ∀ f ∈ runFrames (journal S) (watched c) ks, f.payload.length < 2 ^ 64 := by
    intro f hf
    have := hlimit f hf
    omega
  refine ⟨?_, hwrites, ?_⟩
  · have henc : ∀ f ∈ runFrames (journal S) (watched c) ks, ∀ r,
        (Ws.decoder M hM false).step (encode f ++ r) = .item f (encode f).length := by
      intro f hf r
      obtain ⟨g, hb, ht, -, -, hshort⟩ := encode_made (hmade f hf) (hfit f hf)
      have had : g.Admitted M false := by
        subst ht
        exact ⟨hlimit _ hf, fun h8 => ⟨(hmade _ hf).1, hshort h8⟩, fun h => by cases h⟩
      have hdec := Ws.decodeFrame_bytes hM had r
      rw [hb, ht] at *
      exact hdec
    have hscan := (Ws.decoder M hM false).scan_encode (fun _ => false) encode _ henc
      (fun _ _ => rfl) []
    rw [List.append_nil, (Ws.decoder M hM false).scan_more (b := []) (fun _ => false) rfl] at hscan
    rw [Ws.decodeAll, Journal.written_of_allSent hsent, hwrites, ← List.flatMap_def, hscan]
    simp [Scan.prepend]
  · intro f hf
    obtain ⟨g, hb, ht, hmask, hform, -⟩ := encode_made (hmade f hf) (hfit f hf)
    refine ⟨hmade f hf, g, hb, hmask, ht, ?_⟩
    intro form hform'
    rw [hform]
    exact Ws.LengthForm.width_shortest_le hform'

/-- A socket on which a masked Ping waits and whose kernel takes what it is offered. -/
def pingedSocket : Socket :=
  { reads := [.ok [0x89, 0x81, 0, 0, 0, 0, 0x41]]
    sends := [.accept 999, .accept 999, .accept 999]
    writes := []
    closed := false }

def pingedCalls : List Call := [.send [1, 2, 3], .recv 8192, .send (List.replicate 130 7)]

/-- A short message, a Pong and a message with a 16-bit length are written
whole. -/
theorem one_message_pinged :
    runFrames (journal RawByteStream) (watched (.fresh pingedSocket)) pingedCalls =
        [⟨Ws.kOpBinary, true, [1, 2, 3]⟩, ⟨Ws.kOpPong, true, [0x41]⟩,
          ⟨Ws.kOpBinary, true, List.replicate 130 7⟩] ∧
      Ws.decodeAll 130 (by decide) false
          (calls (journal RawByteStream) (watched (.fresh pingedSocket)) pingedCalls).stream.written =
        ⟨runFrames (journal RawByteStream) (watched (.fresh pingedSocket)) pingedCalls, [],
          .starved⟩ := by
  have hsent :
      (calls (journal RawByteStream) (watched (.fresh pingedSocket)) pingedCalls).stream.AllSent := by
    decide +kernel
  have hlimit : ∀ f ∈ runFrames (journal RawByteStream) (watched (.fresh pingedSocket)) pingedCalls,
      f.payload.length ≤ 130 := by
    decide +kernel
  exact ⟨by decide +kernel,
    (one_message RawByteStream (.fresh pingedSocket) pingedCalls 130 (by decide) hsent hlimit).1⟩

end FaceTracking.WebSocketConn
