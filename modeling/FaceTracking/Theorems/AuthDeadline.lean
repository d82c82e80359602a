import FaceTracking.Net.Timed
import FaceTracking.Theorems.AuthGate
import FaceTracking.Theorems.StrandedData

/-!
# The deadline of an unauthenticated session

The loop checks the time since `startMs` before it polls, so a session that has
not accepted a HELLO begins no read later than `kAuthTimeoutMs` and one poll
timeout after `startMs` (`reading_time`), and the first iteration behind the
deadline ends it (`loopStep_late`). But `startMs` is taken once the transport's
handshake is over, and the handshake has no deadline of its own: a peer that
sends its upgrade request byte by byte holds its slot for as long as it likes
(`dripping_upgrade`). `auth_deadline` is the bound for a handshake that is over
in time.
-/

namespace FaceTracking.ClientSession

open Lib Proto
open WebSocketConn (upgradeRequest)

/-! ## What an iteration leaves alone -/

section Iteration

variable {κ ψ : Type} (W : World κ) (Sh : Shared ψ) (cfg : SessionConfig)

/-- An iteration keeps `startMs`, and a session it leaves has closed its connection. -/
theorem loopStep_startMs {s : ClientSession κ ψ} (hs : s.finished = false) :
    (loopStep W Sh cfg s).startMs = s.startMs ∧
      ((loopStep W Sh cfg s).finished = true → Event.close ∈ (loopStep W Sh cfg s).trace) := by
  have hfinish : ∀ t : ClientSession κ ψ, Event.close ∈ (finish W t).trace :=
    fun t => List.mem_append_right _ (List.mem_singleton.mpr rfl)
  obtain ⟨k, hk⟩ := toPoll_eq W s
  unfold loopStep
  rw [if_neg (by simp [hs])]
  rcases hp : toPoll W s with ⟨_ | timeout, u⟩
  · rw [hp] at hk
    simp only at hk ⊢
    rw [hk]
    exact ⟨rfl, fun _ => hfinish _⟩
  · rw [hp] at hk
    simp only at hk ⊢
    have hwithin := afterPoll_within W Sh cfg { u with net := (W.poll u.net timeout).2 }
      (W.poll u.net timeout).1
    have hstart : u.startMs = s.startMs := by rw [hk]
    have hopen : u.finished = false := by rw [hk, ← hs]
    unfold conclude
    split
    · refine ⟨hwithin.startMs.trans hstart, fun hf => ?_⟩
      rw [hwithin.finished.trans hopen] at hf
      cases hf
    · exact ⟨hwithin.startMs.trans hstart, fun _ => hfinish _⟩

end Iteration

/-! ## The clock in an iteration -/

section Clocked

variable {χ ε ψ : Type} {C : IConn χ} {K : Clock χ} (hC : Metered C K) (E : PromptPoller ε)
  (Sh : Shared ψ) (cfg : SessionConfig)

/-- Before authentication the loop gets to `poll`, with 50 ms, unless it is
stopped or the deadline has passed. -/
theorem toPoll_timed {s : ClientSession (χ × ε) ψ} (hs : s.authed = false) :
    toPoll (World.timed C K E.toPoller) s =
      let s' := { s with net := (s.net.1, (E.stopped s.net.2).2) }
      if (E.stopped s.net.2).1 = true ∨ K.now s.net.1 - s.startMs > kAuthTimeoutMs then (none, s')
      else (some 50, s') := by
  unfold toPoll timeLeft pollTimeout World.timed
  simp only [hs, Bool.false_eq_true, if_false]
  by_cases hstop : (E.stopped s.net.2).1 = true
  · simp [hstop]
  · by_cases hlate : K.now s.net.1 - s.startMs > kAuthTimeoutMs <;> simp [hstop, hlate]

/-- A read of the loop begins within the deadline and one poll timeout. -/
theorem reading_time {s t : ClientSession (χ × ε) ψ} (hs : s.authed = false)
    (hstart : s.startMs ≤ K.now s.net.1) (h : reading (World.timed C K E.toPoller) s = some t) :
    (K.now t.net.1).toNat ≤ s.startMs.toNat + kAuthTimeoutMs.toNat + 50 := by
  unfold reading at h
  rw [toPoll_timed E hs] at h
  split at h
  · cases h
  · simp only at h
    split at h
    · rename_i hnone
      split at hnone
      · cases h
      · cases hnone
    · rename_i timeout u hsome
      split at hsome
      · cases hsome
      · rename_i hgoes
        cases hsome
        split at h
        · cases h
          have hle : K.now s.net.1 - s.startMs ≤ kAuthTimeoutMs :=
            UInt64.not_lt.mp fun hlt => hgoes (.inr hlt)
          -- the elapsed time does not wrap, since the clock has passed `startMs`
          have hsub := UInt64.toNat_sub_of_le _ _ hstart
          have hpoll := E.poll_timeout (E.stopped s.net.2).2 (K.now s.net.1) 50
          have hfifty : (50 : Int32).toInt.toNat = 50 := by decide
          change (K.now (K.set s.net.1 (E.poll (E.stopped s.net.2).2 (K.now s.net.1) 50).1.2)).toNat
            ≤ _
          rw [K.now_set]
          rw [UInt64.le_iff_toNat_le] at hle hstart
          omega
        · cases h

/-- Behind the deadline an iteration ends the session and reads nothing. -/
theorem loopStep_late {s : ClientSession (χ × ε) ψ} (hs : s.authed = false)
    (hf : s.finished = false) (hstart : s.startMs ≤ K.now s.net.1)
    (hlate : s.startMs.toNat + kAuthTimeoutMs.toNat < (K.now s.net.1).toNat) :
    loopStep (World.timed C K E.toPoller) Sh cfg s =
      finish (World.timed C K E.toPoller) { s with net := (s.net.1, (E.stopped s.net.2).2) } := by
  have hover : K.now s.net.1 - s.startMs > kAuthTimeoutMs := by
    have hsub := UInt64.toNat_sub_of_le _ _ hstart
    rw [gt_iff_lt, UInt64.lt_iff_toNat_lt, hsub]
    omega
  unfold loopStep
  rw [if_neg (by simp [hf]), toPoll_timed E hs]
  simp only
  rw [if_pos (.inr hover)]

/-! ## Every iteration -/

/-- The clock has passed `t₀`, and no read has begun behind `limit`. -/
structure Unhurried (K : Clock χ) (t₀ : UInt64) (limit : Nat) (k : χ) : Prop where
  now : t₀ ≤ K.now k
  reads : ∀ u ∈ K.readsAt k, u.toNat ≤ limit

include hC in
theorem unhurried_invariant (t₀ : UInt64) (limit : Nat) :
    NetInvariant (World.timed C K E.toPoller) (fun k => Unhurried K t₀ limit k.1)
      (fun k => ∀ u ∈ K.readsAt k.1, u.toNat ≤ limit) := by
  have hsend : ∀ (k : χ) (b : Bytes), Unhurried K t₀ limit k →
      Unhurried K t₀ limit (C.send k b).2 := by
    intro k b h
    refine ⟨UInt64.le_trans h.now (hC.send_le k b), ?_⟩
    rw [hC.send_reads]
    exact h.reads
  exact
    { weaken := fun k h => h.reads
      reply := fun k m _ h => hsend k.1 m.wire h
      frame := fun k f h => ⟨fun _ => hsend k.1 _ h, (hsend k.1 _ h).reads⟩
      nowMs := fun _ h => h
      stopped := fun _ h => h
      poll := fun k timeout h => by
        refine ⟨?_, ?_⟩
        · change t₀ ≤ K.now (K.set _ _)
          rw [K.now_set]
          exact UInt64.le_trans h.now (E.poll_le _ _ _)
        · change ∀ u ∈ K.readsAt (K.set _ _), _
          rw [K.readsAt_set]
          exact h.reads
      close := fun k h => by
        change ∀ u ∈ K.readsAt (C.close k.1), _
        rw [hC.close_reads]
        exact h }

/-- A session that waits for its HELLO. -/
structure Waiting (K : Clock χ) (t₀ : UInt64) (limit : Nat) (s : ClientSession (χ × ε) ψ) :
    Prop where
  net : NetHolds (fun k => Unhurried K t₀ limit k.1)
    (fun k => ∀ u ∈ K.readsAt k.1, u.toNat ≤ limit) s
  startMs : s.finished = false → s.startMs = t₀
  closed : s.finished = true → Event.close ∈ s.trace

include hC in
/-- An iteration before authentication leaves the session waiting. -/
theorem Waiting.loopStep {t₀ : UInt64} {limit : Nat} (hlimit : t₀.toNat + 5050 ≤ limit)
    {s : ClientSession (χ × ε) ψ} (h : Waiting K t₀ limit s) (hs : s.authed = false) :
    Waiting K t₀ limit (ClientSession.loopStep (World.timed C K E.toPoller) Sh cfg s) := by
  cases hf : s.finished with
  | true =>
    have hstep : ClientSession.loopStep (World.timed C K E.toPoller) Sh cfg s = s := by
      unfold ClientSession.loopStep
      exact if_pos hf
    rw [hstep]
    exact h
  | false =>
    obtain ⟨hstart, hclosed⟩ := loopStep_startMs (World.timed C K E.toPoller) Sh cfg hf
    refine ⟨?_, fun _ => hstart.trans (h.startMs hf), hclosed⟩
    refine (unhurried_invariant hC E t₀ limit).loopStep Sh cfg h.net fun t ht hI => ?_
    have hnow : s.startMs ≤ K.now s.net.1 := by
      rw [h.startMs hf]
      exact (h.net.2 hf).now
    have htime := reading_time E hs hnow ht
    rw [h.startMs hf] at htime
    -- a read begins after the check, at most one poll timeout behind the last one that passed
    refine ⟨UInt64.le_trans hI.now (hC.recv_le t.net.1 8192), ?_⟩
    change ∀ u ∈ K.readsAt (C.recv t.net.1 8192).2, u.toNat ≤ limit
    rcases hC.recv_reads t.net.1 8192 with hreads | hreads
    · rw [hreads]
      exact hI.reads
    · rw [hreads]
      intro u hu
      rcases List.mem_append.mp hu with hu | hu
      · exact hI.reads u hu
      · rw [List.mem_singleton.mp hu]
        have hauth : kAuthTimeoutMs.toNat = 5000 := by decide
        omega

include hC in
/-- The loop begins with every read behind it, and a session whose handshake
fails has ended. -/
theorem Waiting.start {net : χ × ε} (shared : ψ) {limit : Nat}
    (hfresh : ∀ u ∈ K.readsAt net.1, u ≤ K.now net.1)
    (hlimit : (K.now (ClientSession.start (World.timed C K E.toPoller) cfg net
      shared).net.1).toNat ≤ limit) :
    Waiting K (K.now (ClientSession.start (World.timed C K E.toPoller) cfg net shared).net.1) limit
      (ClientSession.start (World.timed C K E.toPoller) cfg net shared) := by
  have hshake := hC.handshake net.1 hfresh
  have hreads :
      ∀ u ∈ K.readsAt (ClientSession.start (World.timed C K E.toPoller) cfg net shared).net.1,
        u ≤ K.now (ClientSession.start (World.timed C K E.toPoller) cfg net shared).net.1 := by
    unfold ClientSession.start
    simp only
    split
    · -- the advertisement takes time, after the reads of the handshake
      intro u hu
      have hsend := hC.send_le (C.handshake net.1).2
        (buildMessage MsgType.Hello.code (helloJson cfg) 0)
      refine UInt64.le_trans (hshake u ?_) hsend
      rw [← hC.send_reads (C.handshake net.1).2 (buildMessage MsgType.Hello.code (helloJson cfg) 0)]
      exact hu
    · change ∀ u ∈ K.readsAt (C.close _), u ≤ K.now (C.close _)
      rw [hC.close_reads, hC.close_now]
      exact hshake
  have hbound :
      ∀ u ∈ K.readsAt (ClientSession.start (World.timed C K E.toPoller) cfg net shared).net.1,
        u.toNat ≤ limit :=
    fun u hu => Nat.le_trans (UInt64.le_iff_toNat_le.mp (hreads u hu)) hlimit
  refine ⟨⟨hbound, fun _ => ⟨UInt64.le_refl _, hbound⟩⟩, ?_, ?_⟩
  · unfold ClientSession.start
    simp only
    split
    · exact fun _ => rfl
    · exact nofun
  · unfold ClientSession.start
    simp only
    split
    · exact nofun
    · exact fun _ => List.mem_append_right _ (List.mem_singleton.mpr rfl)

/-! ## Main result -/

/-- What an iteration from `s` to `s'` owes to a session entered at `entry`. -/
structure Punctual (K : Clock χ) (entry : UInt64) (s s' : ClientSession (χ × ε) ψ) : Prop where
  reads : ∀ u ∈ K.readsAt s'.net.1,
    u.toNat ≤ entry.toNat + kAuthTimeoutMs.toNat + kSocketTimeoutMs
  ended : entry.toNat + kAuthTimeoutMs.toNat + kSocketTimeoutMs < (K.now s.net.1).toNat →
    s'.finished = true ∧ Event.close ∈ s'.trace ∧ K.readsAt s'.net.1 = K.readsAt s.net.1

/-- Every iteration before the HELLO is punctual. -/
def MeetsDeadline (C : IConn χ) (K : Clock χ) (E : PromptPoller ε) (Sh : Shared ψ)
    (cfg : SessionConfig) (net : χ × ε) (shared : ψ) : Prop :=
  ∀ n, (run (World.timed C K E.toPoller) Sh cfg net shared n).authed = false →
    Punctual K (K.now net.1) (run (World.timed C K E.toPoller) Sh cfg net shared n)
      (run (World.timed C K E.toPoller) Sh cfg net shared (n + 1))

/-- `startMs` is taken one poll timeout before the deadline at the latest. -/
def OnTime (C : IConn χ) (K : Clock χ) (E : PromptPoller ε) (cfg : SessionConfig) (net : χ × ε)
    (shared : ψ) : Prop :=
  (K.now (start (World.timed C K E.toPoller) cfg net shared).net.1).toNat + 50 ≤
    (K.now net.1).toNat + kAuthTimeoutMs.toNat

include hC in
/-- As long as nobody has authenticated, a session that is on time waits in time. -/
theorem OnTime.waiting {net : χ × ε} {shared : ψ}
    (hfresh : ∀ u ∈ K.readsAt net.1, u ≤ K.now net.1) (h : OnTime C K E cfg net shared) (n : Nat)
    (hn : (run (World.timed C K E.toPoller) Sh cfg net shared n).authed = false) :
    Waiting K (K.now (ClientSession.start (World.timed C K E.toPoller) cfg net shared).net.1)
      ((K.now net.1).toNat + kAuthTimeoutMs.toNat + kSocketTimeoutMs)
      (run (World.timed C K E.toPoller) Sh cfg net shared n) := by
  have hauth : kAuthTimeoutMs.toNat = 5000 := by decide
  unfold OnTime at h
  induction n with
  | zero =>
    refine Waiting.start hC E cfg shared hfresh ?_
    omega
  | succ n ih =>
    -- `authed` is never taken back
    have hbefore : (run (World.timed C K E.toPoller) Sh cfg net shared n).authed = false := by
      by_contra hopen
      have hlater := (loopStep_later (World.timed C K E.toPoller) Sh cfg
        (run (World.timed C K E.toPoller) Sh cfg net shared n)).authed (by simpa using hopen)
      rw [show loopStep (World.timed C K E.toPoller) Sh cfg
          (run (World.timed C K E.toPoller) Sh cfg net shared n) =
        run (World.timed C K E.toPoller) Sh cfg net shared (n + 1) from rfl, hn] at hlater
      cases hlater
    refine Waiting.loopStep hC E Sh cfg ?_ (ih hbefore) hbefore
    unfold kSocketTimeoutMs
    omega

include hC in
theorem OnTime.meetsDeadline {net : χ × ε} {shared : ψ}
    (hfresh : ∀ u ∈ K.readsAt net.1, u ≤ K.now net.1) (h : OnTime C K E cfg net shared) :
    MeetsDeadline C K E Sh cfg net shared := by
  have hauth : kAuthTimeoutMs.toNat = 5000 := by decide
  intro n hn
  have hwait := h.waiting hC E Sh cfg hfresh n hn
  unfold OnTime at h
  have hstep := Waiting.loopStep hC E Sh cfg (by unfold kSocketTimeoutMs; omega) hwait hn
  refine ⟨hstep.net.1, fun hover => ?_⟩
  cases hf : (run (World.timed C K E.toPoller) Sh cfg net shared n).finished with
  | true =>
    have hstay : run (World.timed C K E.toPoller) Sh cfg net shared (n + 1) =
        run (World.timed C K E.toPoller) Sh cfg net shared n := by
      change loopStep _ _ _ _ = _
      unfold loopStep
      exact if_pos hf
    rw [hstay]
    exact ⟨hf, hwait.closed hf, rfl⟩
  | false =>
    have hstart := hwait.startMs hf
    -- past `entry` by both timeouts is past `startMs` by the first
    have hnow := (hwait.net.2 hf).now
    rw [← hstart] at hnow h
    have hlate : (run (World.timed C K E.toPoller) Sh cfg net shared n).startMs.toNat +
        kAuthTimeoutMs.toNat <
          (K.now (run (World.timed C K E.toPoller) Sh cfg net shared n).net.1).toNat := by
      unfold kSocketTimeoutMs at hover
      omega
    have hend : run (World.timed C K E.toPoller) Sh cfg net shared (n + 1) = _ :=
      loopStep_late E Sh cfg hn hf hnow hlate
    rw [hend]
    exact ⟨rfl, List.mem_append_right _ (List.mem_singleton.mpr rfl), hC.close_reads _⟩

end Clocked

section Deadline

variable {β ε ψ : Type} (S : IByteStream β) (P : Pace β) (E : PromptPoller ε) (Sh : Shared ψ)
  (cfg : SessionConfig)

/-- **The deadline.** For every stream, pace, poller, terminal and configuration,
over either carrier: if the handshake and the advertisement are over one poll
timeout before the deadline, then no read before the HELLO begins later than
`kAuthTimeoutMs` and one socket timeout after `run` was entered, and an
iteration that begins later ends the session. -/
theorem auth_deadline (fuel : Nat) (stream : β) (entry : UInt64) (poller : ε) (shared : ψ) :
    (OnTime (TcpConn (timed S P)) (tcpClock β) E cfg (⟨stream, entry, []⟩, poller) shared →
      MeetsDeadline (TcpConn (timed S P)) (tcpClock β) E Sh cfg (⟨stream, entry, []⟩, poller)
        shared) ∧
    (OnTime (WebSocketConn (timed S P) fuel) (webSocketClock β) E cfg
        (.fresh ⟨stream, entry, []⟩, poller) shared →
      MeetsDeadline (WebSocketConn (timed S P) fuel) (webSocketClock β) E Sh cfg
        (.fresh ⟨stream, entry, []⟩, poller) shared) := by
  refine ⟨fun h => ?_, fun h => ?_⟩
  · exact h.meetsDeadline (tcp_metered S P) E Sh cfg (fun u hu => absurd hu List.not_mem_nil)
  · exact h.meetsDeadline (webSocket_metered S P fuel) E Sh cfg
      (fun u hu => absurd hu List.not_mem_nil)

end Deadline

/-! ## A slow upgrade -/

/-- `d` milliseconds later; the clock does not wrap. -/
def advance (now d : UInt64) : UInt64 := if now ≤ now + d then now + d else now

theorem le_advance (now d : UInt64) : now ≤ advance now d := by
  unfold advance
  split
  · assumption
  · exact UInt64.le_refl _

theorem advance_le (now d : UInt64) : (advance now d).toNat ≤ now.toNat + d.toNat := by
  unfold advance
  split
  · rw [UInt64.toNat_add]
    exact Nat.mod_le _ _
  · exact Nat.le_add_right _ _

/-- A peer that lets every read wait for `d` milliseconds. -/
def dripping (d : UInt64) (hd : d.toNat ≤ kSocketTimeoutMs) : PromptPace Socket where
  handshake _ now := now
  read _ _ now := advance now d
  writeAll _ _ now := now
  handshake_le _ now := UInt64.le_refl now
  read_le _ _ now := le_advance now d
  writeAll_le _ _ now := UInt64.le_refl now
  read_timeout _ _ now := Nat.le_trans (advance_le now d) (Nat.add_le_add_left hd _)

/-- Poll results that come at once. -/
def scripted : PromptPoller (List PollResult) where
  stopped e := (false, e)
  poll e now _ := ((e.headD .timedOut, now), e.tail)
  poll_le _ now _ := UInt64.le_refl now
  poll_timeout _ _ _ := Nat.le_add_right _ _

/-- A client whose upgrade request comes in the given pieces. -/
def upgrading (pieces : List Bytes) : Socket :=
  { reads := pieces.map .ok, sends := List.replicate 9 (.accept 500), writes := [], closed := false }

/-- The request comes in one piece, and then nothing. -/
theorem auth_deadline_prompt :
    MeetsDeadline (WebSocketConn (timed RawByteStream (dripping 4000 (by decide)).toPace) 5)
      (webSocketClock Socket) scripted Shared.empty ⟨15, [0x74]⟩
      (.fresh ⟨upgrading [upgradeRequest], 0, []⟩, []) () :=
  (auth_deadline RawByteStream (dripping 4000 (by decide)).toPace scripted Shared.empty
    ⟨15, [0x74]⟩ 5 (upgrading [upgradeRequest]) 0 [] ()).2 (by unfold OnTime; decide +kernel)

/-- The request comes in four pieces, each just inside the socket timeout. -/
theorem dripping_upgrade :
    ¬ MeetsDeadline (WebSocketConn (timed RawByteStream (dripping 4000 (by decide)).toPace) 5)
      (webSocketClock Socket) scripted Shared.empty ⟨15, [0x74]⟩
      (.fresh ⟨upgrading [upgradeRequest.take 1, (upgradeRequest.drop 1).take 1,
        (upgradeRequest.drop 2).take 1, upgradeRequest.drop 3], 0, []⟩, []) () := by
  intro h
  have hread := (h 0 (by decide +kernel)).reads 12000 (by decide +kernel)
  revert hread
  decide

end FaceTracking.ClientSession
