import FaceTracking.Core.Time
import FaceTracking.Net.SessionRuns
import FaceTracking.Net.Timed
import FaceTracking.Net.VideoStream

/-!
# The pace of the video stream

After each tick of its frame timer a session sets the timer one interval ahead
of the clock, behind whatever time the sending took. So between any two points
of a run it sends at most one frame more than intervals have passed
(`frame_pacing`), however the client reads, and however late the loop comes
round to the timer.
-/

namespace FaceTracking.ClientSession

open Lib Proto

/-- Number of frames sent. -/
def frameCount {κ ψ : Type} (s : ClientSession κ ψ) : Nat := (videoFrames s.trace).length

section Clocked

variable {χ ε ψ : Type} {C : IConn χ} {K : Clock χ} (hC : Metered C K) (E : Poller ε)
  (Sh : Shared ψ) (cfg : SessionConfig)

/-! ## Parts that send no frame -/

/-- Time passes, and nothing happens to the stream and its timer. -/
structure Waits (K : Clock χ) (s s' : ClientSession (χ × ε) ψ) : Prop where
  now : K.now s.net.1 ≤ K.now s'.net.1
  frames : frameCount s' = frameCount s
  timer : s'.nextFrameAt = s.nextFrameAt

theorem Waits.refl (s : ClientSession (χ × ε) ψ) : Waits K s s := ⟨UInt64.le_refl _, rfl, rfl⟩

theorem Waits.trans {s₁ s₂ s₃ : ClientSession (χ × ε) ψ} (h : Waits K s₁ s₂) (h' : Waits K s₂ s₃) :
    Waits K s₁ s₃ :=
  ⟨UInt64.le_trans h.now h'.now, h'.frames.trans h.frames, h'.timer.trans h.timer⟩

/-- An event that is no send only waits. -/
theorem Waits.emit (s : ClientSession (χ × ε) ψ) {e : Event} (he : e.isSend = false) :
    Waits K s (s.emit e) :=
  ⟨UInt64.le_refl _, congrArg List.length (Silent.emit s he).frames, rfl⟩

/-- The clock does not go back in a look at it, at the stop flag, or in a wait.
-/
theorem idle_now {k k' : χ × ε} (h : Idle (World.timed C K E) k k') : K.now k.1 ≤ K.now k'.1 := by
  cases h with
  | nowMs => exact UInt64.le_refl _
  | stopped => exact UInt64.le_refl _
  | poll timeout =>
    show K.now k.1 ≤ K.now (K.set _ _)
    rw [K.now_set]
    exact E.poll_le _ _ _

include hC in
theorem handleMessage_waits (s : ClientSession (χ × ε) ψ) (type : UInt16) (body : Bytes) :
    Waits K s (handleMessage (World.timed C K E) Sh s type body) := by
  have hacts := handleMessage_acts (World.timed C K E) Sh s type body
  have hemit : Waits K s (s.emit (.message type body)) := .emit s rfl
  have hnow : K.now s.net.1 ≤ K.now (handleMessage (World.timed C K E) Sh s type body).net.1 :=
    hacts.net (World.timed C K E) (I := fun k => K.now s.net.1 ≤ K.now k.1)
      (fun k m _ h => UInt64.le_trans h (hC.send_le k.1 m.wire)) hemit.now
  refine hemit.trans ⟨hnow, ?_, (hacts.kept (World.timed C K E)).nextFrameAt⟩
  exact congrArg List.length (Silent.acts (World.timed C K E) hacts).frames

include hC in
theorem onMessage_waits (s : ClientSession (χ × ε) ψ) (m : Message) :
    Waits K s (onMessage (World.timed C K E) Sh cfg s m).1 := by
  unfold onMessage
  split
  · exact handleMessage_waits hC E Sh s m.type m.payload
  · split
    · exact .refl s
    · split
      · have hgate : Waits K s ({ s with authed := true }.emit .authenticated) :=
          ⟨UInt64.le_refl _, (Waits.emit (K := K) s (e := .authenticated) rfl).frames, rfl⟩
        exact hgate.trans (handleMessage_waits hC E Sh _ m.type m.payload)
      · exact .refl s

include hC in
theorem readAndDispatch_waits (s : ClientSession (χ × ε) ψ) :
    Waits K s (readAndDispatch (World.timed C K E) Sh cfg s).2 := by
  refine readAndDispatch_rule _ _ _ (P := Waits K s) ?_ (fun t rx h => ⟨h.now, h.frames, h.timer⟩)
    (fun t m h => h.trans (onMessage_waits hC E Sh cfg t m)) (.refl s)
  intro t h
  have hread : Waits K t (afterRecv (World.timed C K E) t) :=
    ⟨hC.recv_le t.net.1 8192, (Waits.emit (K := K) t (e := .recv _) rfl).frames, rfl⟩
  exact h.trans hread

/-! ## The frame timer -/

/-- Adding the interval to the clock does not wrap around. -/
def Fits (K : Clock χ) (s : ClientSession (χ × ε) ψ) : Prop :=
  (K.now s.net.1).toNat + 1000 < 2 ^ 64

/-- Since `t₀`, when `c₀` frames had been sent, each frame but the first has
taken an interval. -/
structure Paced (K : Clock χ) (cfg : SessionConfig) (t₀ : UInt64) (c₀ : Nat)
    (s : ClientSession (χ × ε) ψ) : Prop where
  since : t₀ ≤ K.now s.net.1
  count : c₀ ≤ frameCount s
  sent : Fits K s → ∀ f, frameCount s = c₀ + f + 1 →
    t₀.toNat + f * (frameIntervalMs cfg).toNat ≤ (K.now s.net.1).toNat

/-- And the next one is not due before another interval. -/
structure Due (K : Clock χ) (cfg : SessionConfig) (t₀ : UInt64) (c₀ : Nat)
    (s : ClientSession (χ × ε) ψ) : Prop extends Paced K cfg t₀ c₀ s where
  due : Fits K s → ∀ f, frameCount s = c₀ + f + 1 →
    t₀.toNat + (f + 1) * (frameIntervalMs cfg).toNat ≤ s.nextFrameAt.toNat

variable {t₀ : UInt64} {c₀ : Nat}

theorem Fits.of_waits {s s' : ClientSession (χ × ε) ψ} (h : Fits K s')
    (hw : K.now s.net.1 ≤ K.now s'.net.1) : Fits K s := by
  have hle := UInt64.le_iff_toNat_le.mp hw
  unfold Fits at h ⊢
  omega

theorem Due.waits {s s' : ClientSession (χ × ε) ψ} (h : Due K cfg t₀ c₀ s) (hw : Waits K s s') :
    Due K cfg t₀ c₀ s' := by
  have hle := UInt64.le_iff_toNat_le.mp hw.now
  refine ⟨⟨UInt64.le_trans h.since hw.now, hw.frames ▸ h.count, fun hfits f hf => ?_⟩,
    fun hfits f hf => ?_⟩
  · rw [hw.frames] at hf
    exact (h.sent (hfits.of_waits hw.now) f hf).trans hle
  · rw [hw.frames] at hf
    rw [hw.timer]
    exact h.due (hfits.of_waits hw.now) f hf

include hC in
/-- Looking for a frame takes time, and at most one is sent. -/
theorem sendFrameIfNew_now (s : ClientSession (χ × ε) ψ) :
    K.now s.net.1 ≤ K.now (sendFrameIfNew (World.timed C K E) Sh s).2.net.1 ∧
      (frameCount (sendFrameIfNew (World.timed C K E) Sh s).2 = frameCount s ∨
        frameCount (sendFrameIfNew (World.timed C K E) Sh s).2 = frameCount s + 1) := by
  refine ⟨?_, ?_⟩
  · unfold sendFrameIfNew
    simp only
    split
    · exact UInt64.le_refl _
    · split
      · exact UInt64.le_refl _
      · split
        · exact UInt64.le_refl _
        · exact hC.send_le s.net.1 _
  · rcases sendFrameIfNew_cases (World.timed C K E) Sh s with ⟨f, -, -, -, hsent, -⟩ | ⟨hsilent, -⟩
    · exact .inr ((congrArg List.length hsent).trans (by rw [List.length_append]; rfl))
    · exact .inl (congrArg List.length hsilent.frames)

/-- A frame sent once it is due keeps the pace. -/
theorem Due.frame {s s' : ClientSession (χ × ε) ψ} (h : Due K cfg t₀ c₀ s)
    (hdue : s.nextFrameAt ≤ K.now s.net.1) (hnow : K.now s.net.1 ≤ K.now s'.net.1)
    (hcount : frameCount s' = frameCount s ∨ frameCount s' = frameCount s + 1) :
    Paced K cfg t₀ c₀ s' := by
  have hle := UInt64.le_iff_toNat_le.mp hnow
  have hdue' := UInt64.le_iff_toNat_le.mp hdue
  have hsince := UInt64.le_iff_toNat_le.mp h.since
  have hc₀ := h.count
  refine ⟨UInt64.le_trans h.since hnow, by omega, fun hfits f hf => ?_⟩
  have hfits₀ := hfits.of_waits hnow
  rcases hcount with hsame | hmore
  · exact (h.sent hfits₀ f (hsame ▸ hf)).trans hle
  · cases f with
    | zero => omega
    | succ f =>
      have := h.due hfits₀ f (by omega)
      omega

theorem frameIntervalMs_le : (frameIntervalMs cfg).toNat ≤ 1000 := by
  unfold frameIntervalMs
  rw [UInt64.toNat_div]
  exact Nat.div_le_self _ _

/-- Setting the timer from the clock makes the next frame due an interval later.
-/
theorem Paced.rearmed {s : ClientSession (χ × ε) ψ} (h : Paced K cfg t₀ c₀ s) :
    Due K cfg t₀ c₀ { s with nextFrameAt := K.now s.net.1 + frameIntervalMs cfg } := by
  refine ⟨⟨h.since, h.count, h.sent⟩, fun hfits f hf => ?_⟩
  have hsent := h.sent hfits f hf
  have hle := frameIntervalMs_le cfg
  have hsum : (K.now s.net.1 + frameIntervalMs cfg).toNat =
      (K.now s.net.1).toNat + (frameIntervalMs cfg).toNat := by
    have hfits : (K.now s.net.1).toNat + 1000 < 2 ^ 64 := hfits
    rw [UInt64.toNat_add, Nat.mod_eq_of_lt (by omega)]
  show _ ≤ (K.now s.net.1 + frameIntervalMs cfg).toNat
  rw [hsum, Nat.add_mul, Nat.one_mul]
  omega

include hC in
theorem Due.frameTick {s : ClientSession (χ × ε) ψ} (h : Due K cfg t₀ c₀ s) :
    Leaves (Due K cfg t₀ c₀) (Paced K cfg t₀ c₀)
      (ClientSession.frameTick (World.timed C K E) Sh cfg s) := by
  obtain ⟨hnow, hcount⟩ := sendFrameIfNew_now hC E Sh s
  unfold ClientSession.frameTick
  split
  · by_cases hdue : K.now s.net.1 ≥ s.nextFrameAt
    · -- looking at the clock changes nothing
      have hpaced := h.frame cfg hdue hnow hcount
      have hsame : ∀ s : ClientSession (χ × ε) ψ,
          { s with net := ((World.timed C K E).nowMs s.net).2 } = s := fun _ => rfl
      have hclock : ∀ k : χ × ε, ((World.timed C K E).nowMs k).1 = K.now k.1 := fun _ => rfl
      simp only [hsame, hclock]
      rw [if_pos hdue]
      split
      · exact ⟨(hpaced.rearmed cfg).toPaced, fun _ => hpaced.rearmed cfg⟩
      · exact ⟨hpaced, fun hgo => absurd hgo Bool.false_ne_true⟩
    · have hclock : ((World.timed C K E).nowMs s.net).1 = K.now s.net.1 := rfl
      simp only [hclock]
      rw [if_neg hdue]
      exact ⟨h.toPaced, fun _ => h⟩
  · exact ⟨h.toPaced, fun _ => h⟩

/-! ## Runs -/

include hC in
theorem Due.loopStep {s : ClientSession (χ × ε) ψ}
    (h : Holds (Due K cfg t₀ c₀) (Paced K cfg t₀ c₀) s) :
    Holds (Due K cfg t₀ c₀) (Paced K cfg t₀ c₀)
      (ClientSession.loopStep (World.timed C K E) Sh cfg s) := by
  refine loopStep_rule (fun s h => h.toPaced) ?_ ?_ ?_ ?_ h
  · exact fun s k hk h => h.waits cfg ⟨idle_now E hk, rfl, rfl⟩
  · intro s h
    have hread := h.waits cfg (readAndDispatch_waits hC E Sh cfg s)
    exact ⟨hread.toPaced, fun _ => hread⟩
  · exact fun s h => h.frameTick hC E Sh cfg
  · intro s h
    have hnow : K.now (finish (World.timed C K E) s).net.1 = K.now s.net.1 := hC.close_now s.net.1
    have hframes : frameCount (finish (World.timed C K E) s) = frameCount s :=
      (Waits.emit (K := K) s (e := .close) rfl).frames
    refine ⟨hnow ▸ h.since, hframes ▸ h.count, fun hfits f hf => ?_⟩
    rw [hnow]
    exact h.sent (by unfold Fits at hfits ⊢; rwa [hnow] at hfits) f (hframes ▸ hf)

theorem frameIntervalMs_toNat :
    (frameIntervalMs cfg).toNat = 1000 / (fps cfg).toInt.toNat := by
  have hlt : (fps cfg).toInt.toNat < 2 ^ 64 := by
    have := (fps cfg).toInt_lt
    omega
  unfold frameIntervalMs
  rw [UInt64.toNat_div, UInt64.toNat_ofNat', Nat.mod_eq_of_lt hlt]
  rfl

/-- Between two points of a run at most one frame more is sent than intervals
have passed on the clock. -/
def KeepsPace (K : Clock χ) (cfg : SessionConfig) (r : Nat → ClientSession (χ × ε) ψ) : Prop :=
  ∀ n m, IsReading (K.now (r (n + m)).net.1) →
    ∀ f, frameCount (r (n + m)) = frameCount (r n) + f + 1 →
      (K.now (r n).net.1).toNat + f * (1000 / (fps cfg).toInt.toNat) ≤
        (K.now (r (n + m)).net.1).toNat

include hC in
theorem run_keepsPace (net : χ × ε) (shared : ψ) :
    KeepsPace K cfg (run (World.timed C K E) Sh cfg net shared) := by
  intro n m hclock f hf
  let s := run (World.timed C K E) Sh cfg net shared n
  have hrun : ∀ m, Holds (Due K cfg (K.now s.net.1) (frameCount s))
      (Paced K cfg (K.now s.net.1) (frameCount s))
      (run (World.timed C K E) Sh cfg net shared (n + m)) := by
    intro m
    induction m with
    | zero =>
      have hnone : ∀ f, frameCount s ≠ frameCount s + f + 1 := by omega
      have hstart : Due K cfg (K.now s.net.1) (frameCount s) s :=
        ⟨⟨UInt64.le_refl _, Nat.le_refl _, fun _ f hf => absurd hf (hnone f)⟩,
          fun _ f hf => absurd hf (hnone f)⟩
      exact ⟨hstart.toPaced, fun _ => hstart⟩
    | succ m ih => exact Due.loopStep hC E Sh cfg ih
  have hlt := hclock.lt
  rw [← frameIntervalMs_toNat]
  exact (hrun m).1.sent (show (K.now _).toNat + 1000 < 2 ^ 64 by omega) f hf

end Clocked

/-- **The pace of the stream.** For every stream, pace of it, poller, terminal
and configuration, sessions over either carrier keep the pace. The clock may run
on during any call; a read, a write or a wait may take longer than it was given. -/
theorem frame_pacing {β ε ψ : Type} (S : IByteStream β) (P : Pace β) (E : Poller ε)
    (Sh : Shared ψ) (cfg : SessionConfig) (fuel : Nat) (stream : β) (entry : UInt64) (poller : ε)
    (shared : ψ) :
    KeepsPace (tcpClock β) cfg (run (World.timed (TcpConn (timed S P)) (tcpClock β) E) Sh cfg
      (⟨stream, entry, []⟩, poller) shared) ∧
    KeepsPace (webSocketClock β) cfg
      (run (World.timed (WebSocketConn (timed S P) fuel) (webSocketClock β) E) Sh cfg
        (.fresh ⟨stream, entry, []⟩, poller) shared) :=
  ⟨run_keepsPace (tcp_metered S P) E Sh cfg _ shared,
    run_keepsPace (webSocket_metered S P fuel) E Sh cfg _ shared⟩

end FaceTracking.ClientSession
