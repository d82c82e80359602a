import FaceTracking.Net.ClientSession
import FaceTracking.Net.WebSocketConn

/-!
# No stranded WebSocket data

The session calls `recv` only when the kernel has bytes, so what the carrier
holds back when the session goes to `poll` waits for the client to send more.
The carrier holds nothing back (`Drained`) as long as the upgrade request
comes without a complete frame behind it and no single read completes frames
of more than 8192 bytes of data (`no_stranded_data`). The handshake puts what
it read behind the request into `rx` without draining it
(`frame_behind_request_stranded`).

A read of a drained carrier finds `app` empty, so what it hands out is what
the frames completed by the new bytes carry: `recv_drained`.
-/

namespace FaceTracking.WebSocketConn

open Lib

variable {β : Type} (S : IByteStream β)

/-! ## Drained carriers -/

/-- No complete frame in front of the bytes. -/
def NoFrame (b : Bytes) : Prop := ∀ f n, Ws.decodeFrame b Ws.kMaxPayload true ≠ .item f n

instance (b : Bytes) : Decidable (NoFrame b) :=
  match h : Ws.decodeFrame b Ws.kMaxPayload true with
  | .item f n => .isFalse fun hno => hno f n h
  | .more => .isTrue fun f n hi => by rw [h] at hi; cases hi
  | .bad => .isTrue fun f n hi => by rw [h] at hi; cases hi

/-- Everything read has been passed on: while the connection is open, no
staged byte and no complete frame is left. -/
def Drained (c : State β) : Prop := c.closed = false → c.app = [] ∧ NoFrame c.rx

instance (c : State β) : Decidable (Drained c) := inferInstanceAs (Decidable (_ → _ ∧ _))

/-- The next read of the stream ends the frames, or the frames it completes
carry no more data than the session takes at once. -/
def Fits (c : State β) : Prop :=
  let input := c.rx ++ bytesOf (S.read c.stream 8192).1
  (Ws.content input).ending ≠ .starved ∨ (Ws.deframe input).length ≤ 8192

instance (c : State β) : Decidable (Fits S c) := inferInstanceAs (Decidable (_ ∨ _))

/-- An upgrade leaves the carrier drained if no frame came in behind the
request. -/
theorem handshake_drained {fuel : Nat} {s : β}
    (hspill : ∀ req s', readRequest S fuel [] (S.handshake s).2 = (some req, s') →
      requestKey req ≠ [] → (S.writeAll s' (response (requestKey req))).1 = true →
      NoFrame (req.drop (bodyStart req)))
    (hup : (handshake S fuel (.fresh s)).1 = true) :
    Drained (handshake S fuel (.fresh s)).2 := by
  intro _
  obtain ⟨-, hr⟩ | hr | ⟨req, -, hreq, hkey, hr⟩ := handshake_cases S fuel (.fresh s)
  · rw [hr] at hup
    cases hup
  · rw [hr] at hup
    cases hup
  · rw [hr] at hup ⊢
    exact ⟨rfl, hspill req _ (Prod.ext hreq rfl) hkey hup⟩

/-- A carrier that is still open after draining has seen its input run out, so
what is left holds no complete frame. -/
theorem drainFrames_open {c : State β} (hc : c.closed = false)
    (hd : (drainFrames S c).closed = false) :
    (Ws.content c.rx).ending = .starved ∧ NoFrame (drainFrames S c).rx := by
  rw [drainFrames_eq S c hc] at hd ⊢
  have hstarved : (Ws.content c.rx).ending = .starved := by simpa using hd
  refine ⟨hstarved, ?_⟩
  intro f n hitem
  have hmore := Ws.frames.step_rest_of_starved Ws.isClose c.rx hstarved
  rw [Ws.frames_step] at hmore
  unfold Ws.content at hitem
  rw [hmore] at hitem
  cases hitem

/-- **Reading.** A read that fits leaves a drained carrier drained. -/
theorem recv_drained {c : State β} (hc : Drained c) (hfits : Fits S c) :
    Drained (recv S c 8192).2 := by
  unfold Fits at hfits
  obtain ⟨ha, hr⟩ | ⟨-, -, hr⟩ | ⟨ha, hopen, hb, hr⟩ | ⟨ha, hopen, hb, hr⟩ := recv_cases S c 8192
  · rw [hr]
    exact fun hcl => absurd (hc hcl).1 ha
  · rw [hr]
    exact hc
  · have hsame : (filled S c).rx = c.rx := by rw [filled, hb, List.append_nil]
    rw [hr]
    intro hcl
    rw [hsame]
    exact hc hcl
  · have happ : (drainFrames S (filled S c)).app = Ws.deframe (filled S c).rx := by
      rw [drainFrames_eq S (filled S c) hopen]
      exact congrArg (· ++ _) ha
    have hrest := drainFrames_open S (c := filled S c) hopen
    rw [hr, handOut_state]
    intro hstill
    obtain ⟨hstarved, hno⟩ := hrest hstill
    refine ⟨List.drop_eq_nil_of_le ?_, hno⟩
    rw [happ]
    exact hfits.resolve_left (not_not_intro hstarved)

/-! ## The session -/

open ClientSession

variable {ε ψ : Type} (E : Environment ε) (Sh : Shared ψ) (cfg : SessionConfig)

/-- Sending does not touch the buffers. -/
theorem drained_invariant (fuel : Nat) :
    NetInvariant (World.of (WebSocketConn S fuel) E) (fun k => Drained k.1) (fun _ => True) where
  weaken _ _ := trivial
  reply _ _ _ h := h
  frame _ _ h := ⟨fun _ => h, trivial⟩
  nowMs _ h := h
  stopped _ h := h
  poll _ _ h := h
  close _ h := h

/-- If the session is about to call `poll`, its carrier is drained. -/
def PollsDrained {κ : Type} (W : World (State β × κ)) (s : ClientSession (State β × κ) ψ) : Prop :=
  s.finished = false → (toPoll W s).1 ≠ none → Drained (toPoll W s).2.net.1

instance {κ : Type} (W : World (State β × κ)) (s : ClientSession (State β × κ) ψ) :
    Decidable (PollsDrained W s) :=
  inferInstanceAs (Decidable (_ → _ → _))

/-- **Nothing is stranded.** Whenever the session is about to call `poll`, the
carrier is drained, if an upgrade that went through came without a complete
frame behind the request and every read so far fitted. -/
theorem no_stranded_data (fuel : Nat) (sock : Socket) (env : ε) (shared : ψ) (n : Nat) :
    let W := World.of (WebSocketConn RawByteStream fuel) E
    let s := run W Sh cfg (.fresh sock, env) shared
    (∀ req sock', readRequest RawByteStream fuel [] sock = (some req, sock') →
      requestKey req ≠ [] → (RawByteStream.writeAll sock' (response (requestKey req))).1 = true →
      NoFrame (req.drop (bodyStart req))) →
    (∀ m < n, ∀ t ∈ reading W (s m), Fits RawByteStream t.net.1) →
    PollsDrained W (s n) := by
  intro W s hspill hreads
  have h := drained_invariant RawByteStream E fuel
  have hholds : NetHolds (fun k => Drained k.1) (fun _ => True) (s n) := by
    induction n with
    | zero =>
      exact h.start cfg shared (fun hup => handshake_drained RawByteStream hspill hup)
        (fun _ => trivial)
    | succ n ih =>
      refine h.loopStep Sh cfg (ih fun m hm => hreads m (by omega)) ?_
      intro t ht hdrained
      exact recv_drained RawByteStream hdrained (hreads n (by omega) t ht)
  intro hlive _
  exact h.toPoll (hholds.2 hlive)

/-- An upgrade request. -/
def upgradeRequest : Bytes := utf8 "GET / HTTP/1.1\r\nSec-WebSocket-Key: x\r\n\r\n"

/-- A masked binary frame with one byte of data. -/
def oneByteFrame : Bytes := [0x82, 0x81, 0, 0, 0, 0, 0x41]

/-- A client whose frame arrives in a read of its own. -/
def separateReads : Socket :=
  { reads := [.ok upgradeRequest, .ok oneByteFrame]
    sends := List.replicate 9 (.accept 500)
    writes := []
    closed := false }

/-- A client whose frame arrives together with the request. -/
def oneRead : Socket := { separateReads with reads := [.ok (upgradeRequest ++ oneByteFrame)] }

def upgradeWorld : World (State Socket × List PollResult) :=
  .of (WebSocketConn RawByteStream 5) (schedule 0)

/-- The session of such a client after `n` iterations. -/
def upgraded (sock : Socket) (n : Nat) : ClientSession (State Socket × List PollResult) Unit :=
  run upgradeWorld Shared.empty ⟨15, []⟩ (.fresh sock, [.ready false true, .timedOut]) () n

theorem no_stranded_data_separate_reads :
    (upgraded separateReads 1).rx = [0x41] ∧ PollsDrained upgradeWorld (upgraded separateReads 1) := by
  have hrequest : readRequest RawByteStream 5 [] separateReads =
      (some upgradeRequest, { separateReads with reads := [.ok oneByteFrame] }) := by
    decide +kernel
  have hspill : NoFrame (upgradeRequest.drop (bodyStart upgradeRequest)) := by decide +kernel
  have hfirst : ∀ req sock', readRequest RawByteStream 5 [] separateReads = (some req, sock') →
      requestKey req ≠ [] → (RawByteStream.writeAll sock' (response (requestKey req))).1 = true →
      NoFrame (req.drop (bodyStart req)) := by
    intro req sock' hreq _ _
    rw [hrequest, Prod.mk.injEq, Option.some.injEq] at hreq
    exact hreq.1 ▸ hspill
  have hreads : ∀ m < 1, ∀ t ∈ reading upgradeWorld (upgraded separateReads m),
      Fits RawByteStream t.net.1 := by decide +kernel
  exact ⟨by decide +kernel, no_stranded_data (schedule 0) Shared.empty ⟨15, []⟩ 5 separateReads
    [.ready false true, .timedOut] () 1 hfirst hreads⟩

/-- The frame behind the request is still in `rx` when the session first calls
`poll`. -/
theorem frame_behind_request_stranded : ¬ PollsDrained upgradeWorld (upgraded oneRead 0) := by
  decide +kernel

end FaceTracking.WebSocketConn
